import MyBookSources.SendMail.SmtpSocket

/-! # The SMTP dialogue

The methods of `SmtpSocket` together hold one lock-step dialogue, whose turns are written
down here.
-/

namespace MyBookSources.SendMail

open LockStep

namespace SmtpSocket

/-! ## The turns of a mail -/

def turn (sends : List Bytes) (code : String) : Turn Bytes Received :=
  ⟨sends, beginsWith (ascii code)⟩

/-- The pieces in which the message goes over the socket. -/
def pieces (data : Bytes) : List Bytes :=
  if data = [] then []
  else data.take SEND_MAX_SIZE :: pieces (data.drop SEND_MAX_SIZE)
  termination_by data.length
  decreasing_by
    have positive : 0 < data.length := List.length_pos_iff.mpr (by assumption)
    simp only [List.length_drop, SEND_MAX_SIZE]
    omega

def connectTurns (url : Bytes) : List (Turn Bytes Received) :=
  [turn [] "220", turn [heloCommand url] "250"]

def logonTurns (outside : Int → Byte) (user password : Bytes) : List (Turn Bytes Received) :=
  [turn [ascii "AUTH LOGIN\r\n"] "334", turn [encodedLine outside user] "334",
    turn [encodedLine outside password] "235"]

def mailFromTurns (strFrom : Bytes) : List (Turn Bytes Received) :=
  [turn [mailFromCommand strFrom] "250"]

def rcptToTurns (recipients : List Bytes) : List (Turn Bytes Received) :=
  recipients.map fun recipient => turn [rcptToCommand recipient] "250"

def sendTurns (data : Bytes) : List (Turn Bytes Received) :=
  [turn [ascii "DATA\r\n"] "354", turn (pieces data) "250"]

def Mail.user (mail : Mail) : Bytes := mail.strFrom.take (mail.strFrom.idxOf 64)

def Mail.message (mail : Mail) (now : Int) : Bytes :=
  messageText now (cString mail.strFrom) mail.recipients mail.subject mail.mailData

/-- HELO, AUTH LOGIN, user, password, MAIL FROM, one rcpt to for each recipient, DATA and the
message, each with the code of the reply to it; the first turn is the greeting. -/
def mailTurns (around : Surroundings) (mail : Mail) : List (Turn Bytes Received) :=
  connectTurns mail.server ++ (logonTurns around.outside mail.user mail.fromPassword ++
    (mailFromTurns mail.strFrom ++ (rcptToTurns mail.recipients ++
      sendTurns (mail.message around.now))))

def Mail.commands (around : Surroundings) (mail : Mail) : List Bytes :=
  [heloCommand mail.server, ascii "AUTH LOGIN\r\n", encodedLine around.outside mail.user,
    encodedLine around.outside mail.fromPassword, mailFromCommand mail.strFrom] ++
    mail.recipients.map rcptToCommand ++ ascii "DATA\r\n" :: pieces (mail.message around.now)

theorem commands_mailTurns (around : Surroundings) (mail : Mail) :
    commands (mailTurns around mail) = mail.commands around := by
  have recipients : commands (rcptToTurns mail.recipients) =
      mail.recipients.map rcptToCommand := by
    simp only [commands, rcptToTurns, turn, List.flatMap_map]
    exact List.map_eq_flatMap.symm
  rw [commands] at recipients
  simp [commands, mailTurns, connectTurns, logonTurns, mailFromTurns, sendTurns, turn,
    Mail.commands, recipients]

theorem pieces_ne_nil {data : Bytes} (some_data : data ≠ []) : pieces data ≠ [] := by
  rw [pieces, if_neg some_data]
  exact List.cons_ne_nil _ _

/-! ## Calls that hold a part of the dialogue -/

/-- On this socket the call holds the dialogue of these turns, and `post` is what it leaves if
it succeeds. -/
structure Talks (peer : Peer) (call : SmtpSocket → Bool × SmtpSocket)
    (turns : List (Turn Bytes Received)) (smtp : SmtpSocket) (post : SmtpSocket → Prop) :
    Prop where
  result : (call smtp).1 = (converse peer turns smtp.trace).1
  trace : (call smtp).2.trace = (converse peer turns smtp.trace).2
  hSocket : (call smtp).2.hSocket = smtp.hSocket
  post : (call smtp).1 = true → post (call smtp).2

def Sends (peer : Peer) (call : SmtpSocket → Bool × SmtpSocket) (commands : List Bytes) : Prop :=
  ∀ smtp, call smtp = ((sendAll peer commands smtp.trace).1,
    { smtp with trace := (sendAll peer commands smtp.trace).2 })

variable {peer : Peer} {smtp : SmtpSocket} {post : SmtpSocket → Prop}

theorem transmit_sends (data : Bytes) : Sends peer (transmit peer data) [data] := by
  intro smtp
  simp only [transmit, sendAll]
  split <;> rfl

theorem transmitPieces_sends (data : Bytes) :
    Sends peer (transmitPieces peer data) (pieces data) := by
  induction data using pieces.induct with
  | case1 =>
      intro smtp
      rw [transmitPieces, pieces, if_pos rfl, if_pos rfl]
      rfl
  | case2 data some_data induction =>
      intro smtp
      rw [transmitPieces, pieces, if_neg some_data, if_neg some_data]
      simp only [andThen, transmit, sendAll]
      split
      · simp only [if_true]
        rw [induction]
      · simp

theorem Talks.done {update : SmtpSocket → SmtpSocket} (same : (update smtp).trace = smtp.trace)
    (socket : (update smtp).hSocket = smtp.hSocket) (holds : post (update smtp)) :
    Talks peer (fun smtp => (true, update smtp)) [] smtp post :=
  ⟨rfl, same, socket, fun _ => holds⟩

theorem Talks.exchange {call rest : SmtpSocket → Bool × SmtpSocket} {commands : List Bytes}
    {code : String} {turns : List (Turn Bytes Received)} (sends : Sends peer call commands)
    (next : ∀ trace, Talks peer rest turns { smtp with trace := trace } post) :
    Talks peer (fun smtp => andThen call smtp fun smtp =>
      andThen (checkResponse peer (ascii code)) smtp rest)
      (turn commands code :: turns) smtp post := by
  cases sent : (sendAll peer commands smtp.trace).1 with
  | false =>
      constructor <;> simp [andThen, sends smtp, converse, takeTurn, turn, sent]
  | true =>
      generalize traced : (sendAll peer commands smtp.trace).2 = trace
      generalize heard : peer.replies trace.received.length = reply
      have after := next (trace ++ [.received reply])
      cases expected : beginsWith (ascii code) reply with
      | false =>
          constructor <;> simp [andThen, sends smtp, checkResponse, converse, takeTurn, turn,
            sent, traced, heard, expected]
      | true =>
          constructor
          · simpa [andThen, sends smtp, checkResponse, converse, takeTurn, turn, sent, traced,
              heard, expected] using after.result
          · simpa [andThen, sends smtp, checkResponse, converse, takeTurn, turn, sent, traced,
              heard, expected] using after.trace
          · simpa [andThen, sends smtp, checkResponse, sent, traced, heard, expected] using
              after.hSocket
          · simpa [andThen, sends smtp, checkResponse, sent, traced, heard, expected] using
              after.post

theorem Talks.andThen {call rest : SmtpSocket → Bool × SmtpSocket}
    {left right : List (Turn Bytes Received)} {middle : SmtpSocket → Prop}
    (first : Talks peer call left smtp middle)
    (next : ∀ after, after.hSocket = smtp.hSocket → middle after →
      Talks peer rest right after post) :
    Talks peer (fun smtp => SmtpSocket.andThen call smtp rest) (left ++ right) smtp post := by
  have result := first.result
  have trace := first.trace
  cases going : (call smtp).1 with
  | false =>
      rw [going] at result
      constructor
      · simp [SmtpSocket.andThen, converse_append, going, ← result]
      · simp [SmtpSocket.andThen, converse_append, going, ← result, trace]
      · simp [SmtpSocket.andThen, going, first.hSocket]
      · simp [SmtpSocket.andThen, going]
  | true =>
      rw [going] at result
      have after := next _ first.hSocket (first.post going)
      constructor
      · simpa [SmtpSocket.andThen, converse_append, going, ← result, trace] using after.result
      · simpa [SmtpSocket.andThen, converse_append, going, ← result, trace] using after.trace
      · simpa [SmtpSocket.andThen, going, first.hSocket] using after.hSocket
      · simpa [SmtpSocket.andThen, going] using after.post

/-! ## The methods -/

/-- `connect` behind the connection itself. -/
def greet (peer : Peer) (url : Bytes) (smtp : SmtpSocket) : Bool × SmtpSocket :=
  SmtpSocket.andThen (checkResponse peer (ascii "220")) smtp fun smtp =>
  SmtpSocket.andThen (transmit peer (heloCommand url)) smtp fun smtp =>
  SmtpSocket.andThen (checkResponse peer (ascii "250")) smtp fun smtp =>
  (true, { smtp with bConnected := true })

theorem greet_talks (url : Bytes) :
    Talks peer (greet peer url) (connectTurns url) smtp (fun _ => True) := by
  have silent : Sends peer (fun smtp => (true, smtp)) [] := fun _ => rfl
  exact Talks.exchange silent fun _ => Talks.exchange (transmit_sends _) fun _ =>
    Talks.done rfl rfl trivial

theorem Talks.congr {call other : SmtpSocket → Bool × SmtpSocket}
    {turns : List (Turn Bytes Received)} (same : call smtp = other smtp)
    (talks : Talks peer other turns smtp post) : Talks peer call turns smtp post := by
  rcases talks with ⟨result, trace, hSocket, left⟩
  rw [← same] at result trace hSocket left
  exact ⟨result, trace, hSocket, left⟩

theorem Talks.opened {rest : SmtpSocket → Bool × SmtpSocket} {turns : List (Turn Bytes Received)}
    (opened : 0 ≤ smtp.hSocket) (talks : Talks peer rest turns smtp post) :
    Talks peer (fun smtp => if smtp.hSocket < 0 then (false, smtp) else rest smtp) turns smtp
      post :=
  talks.congr (if_neg (Int.not_lt.mpr opened))

theorem logon_talks (outside : Int → Byte) (user password : Bytes) (opened : 0 ≤ smtp.hSocket) :
    Talks peer (logon outside peer user password) (logonTurns outside user password) smtp
      (fun _ => True) := by
  exact Talks.opened opened (Talks.exchange (transmit_sends _) fun _ =>
    Talks.exchange (transmit_sends _) fun _ => Talks.exchange (transmit_sends _) fun _ =>
    Talks.done rfl rfl trivial)

theorem setMailFrom_talks (strFrom : Bytes) (opened : 0 ≤ smtp.hSocket) :
    Talks peer (setMailFrom peer strFrom) (mailFromTurns strFrom) smtp
      (fun after => after.strFrom = cString strFrom) := by
  exact Talks.opened opened (Talks.exchange (transmit_sends _) fun _ => Talks.done rfl rfl rfl)

theorem rcptTo_talks (recipients : List Bytes) :
    Talks peer (rcptTo peer recipients) (rcptToTurns recipients) smtp
      (fun after => after.strFrom = smtp.strFrom) := by
  induction recipients generalizing smtp with
  | nil => exact Talks.done rfl rfl rfl
  | cons recipient rest induction =>
      exact Talks.exchange (transmit_sends _) fun _ => induction

theorem setMailTo_talks (recipients : List Bytes) (opened : 0 ≤ smtp.hSocket) :
    Talks peer (setMailTo peer recipients) (rcptToTurns recipients) smtp
      (fun after => after.strFrom = smtp.strFrom ∧ after.strTo = recipients) := by
  rw [← List.append_nil (rcptToTurns recipients)]
  exact Talks.opened opened ((rcptTo_talks recipients).andThen fun _ _ same =>
    Talks.done rfl rfl ⟨same, rfl⟩)

theorem send_talks (now : Int) (subject mailData : Bytes) (opened : 0 ≤ smtp.hSocket) :
    Talks peer (send peer now subject mailData)
      (sendTurns (messageText now smtp.strFrom smtp.strTo subject mailData)) smtp
      (fun _ => True) := by
  have same : send peer now subject mailData smtp =
      (fun entered =>
        SmtpSocket.andThen (transmit peer (ascii "DATA\r\n")) entered fun entered =>
        SmtpSocket.andThen (checkResponse peer (ascii "354")) entered fun entered =>
        SmtpSocket.andThen (transmitPieces peer
          (messageText now smtp.strFrom smtp.strTo subject mailData)) entered fun entered =>
        SmtpSocket.andThen (checkResponse peer (ascii "250")) entered fun entered =>
        (true, entered)) smtp :=
    if_neg (Int.not_lt.mpr opened)
  exact Talks.congr same (Talks.exchange (transmit_sends _) fun _ =>
    Talks.exchange (transmitPieces_sends _) fun _ => Talks.done rfl rfl trivial)

/-! ## The whole mail -/

def Reachable (host : Host) : Prop :=
  0 ≤ host.socket ∧ host.found = true ∧ host.answers = true

def opened (host : Host) : SmtpSocket := { create with hSocket := host.socket }

theorem connect_reachable {host : Host} (reachable : Reachable host) (url : Bytes) :
    connect host peer url create = greet peer url (opened host) := by
  rcases reachable with ⟨present, found, answers⟩
  have valid : ¬ host.socket < 0 := Int.not_lt.mpr present
  simp [connect, closeConnection, create, valid, found, answers, greet, opened]

theorem connect_unreachable {host : Host} (unreachable : ¬ Reachable host) (url : Bytes) :
    connect host peer url create = (false, opened host) := by
  have reason : host.socket < 0 ∨ host.found = false ∨ host.answers = false := by
    by_contra other
    simp only [not_or, Int.not_lt, Bool.not_eq_false] at other
    exact unreachable other
  rcases reason with absent | hidden | silent
  · simp [connect, closeConnection, create, opened, absent]
  · simp [connect, closeConnection, create, opened, hidden]
  · simp [connect, closeConnection, create, opened, silent]

/-- The calls of `sendMail` behind the connection. -/
def deliver (around : Surroundings) (peer : Peer) (mail : Mail) (smtp : SmtpSocket) :
    Bool × SmtpSocket :=
  SmtpSocket.andThen (logon around.outside peer mail.user mail.fromPassword) smtp fun smtp =>
  SmtpSocket.andThen (setMailFrom peer mail.strFrom) smtp fun smtp =>
  SmtpSocket.andThen (setMailTo peer mail.recipients) smtp fun smtp =>
  SmtpSocket.andThen (send peer around.now mail.subject mail.mailData) smtp fun smtp =>
  (true, smtp)

theorem deliver_talks (around : Surroundings) (mail : Mail) (present : 0 ≤ smtp.hSocket) :
    Talks peer (deliver around peer mail)
      (logonTurns around.outside mail.user mail.fromPassword ++
        (mailFromTurns mail.strFrom ++ (rcptToTurns mail.recipients ++
          sendTurns (mail.message around.now)))) smtp (fun _ => True) := by
  apply (logon_talks around.outside mail.user mail.fromPassword present).andThen
  intro loggedOn socket _
  rw [← socket] at present
  apply (setMailFrom_talks mail.strFrom present).andThen
  intro fromSet socket fromKept
  rw [← socket] at present
  apply (setMailTo_talks mail.recipients present).andThen
  intro toSet socket kept
  rw [← socket] at present
  rw [fromKept] at kept
  have sends : Talks peer (send peer around.now mail.subject mail.mailData)
      (sendTurns (mail.message around.now)) toSet (fun _ => True) := by
    have sent : Talks peer (send peer around.now mail.subject mail.mailData) _ toSet _ :=
      send_talks around.now mail.subject mail.mailData present
    rw [kept.1, kept.2] at sent
    exact sent
  rw [← List.append_nil (sendTurns _)]
  exact sends.andThen fun _ _ _ => Talks.done rfl rfl trivial

/-- `sendMail` before its destructor is one dialogue, if the connection comes about. -/
theorem converseMail_talks {around : Surroundings} (reachable : Reachable around.host)
    {mail : Mail} {atSymbolPos : Nat} (at_sign : mail.strFrom.idxOf? 64 = some atSymbolPos) :
    (converseMail around peer mail atSymbolPos).1 =
        (converse peer (mailTurns around mail) []).1 ∧
      (converseMail around peer mail atSymbolPos).2.trace =
        (converse peer (mailTurns around mail) []).2 ∧
      0 ≤ (converseMail around peer mail atSymbolPos).2.hSocket := by
  have user : mail.strFrom.take atSymbolPos = mail.user := by
    rw [Mail.user, List.idxOf_eq_getD_idxOf?, at_sign]
    rfl
  have talks : Talks peer (fun smtp =>
      SmtpSocket.andThen (greet peer mail.server) smtp (deliver around peer mail))
      (mailTurns around mail) (opened around.host) (fun _ => True) :=
    (greet_talks mail.server).andThen fun after socket _ =>
      deliver_talks around mail (by rw [socket]; exact reachable.1)
  have same : converseMail around peer mail atSymbolPos =
      SmtpSocket.andThen (greet peer mail.server) (opened around.host)
        (deliver around peer mail) := by
    rw [converseMail, user, SmtpSocket.andThen, connect_reachable reachable]
    rfl
  rw [same]
  refine ⟨talks.result, talks.trace, ?_⟩
  rw [talks.hSocket]
  exact reachable.1

theorem converseMail_unreachable {around : Surroundings}
    (unreachable : ¬ Reachable around.host) (mail : Mail) (atSymbolPos : Nat) :
    converseMail around peer mail atSymbolPos = (false, opened around.host) := by
  rw [converseMail, SmtpSocket.andThen, connect_unreachable unreachable]
  rfl

/-- What the destructor leaves on the socket: at most a `QUIT` and the reply to it. -/
inductive Farewell : Trace Bytes Received → Prop
  | silent : Farewell []
  | failed : Farewell [.failed (ascii "QUIT\r\n")]
  | answered (reply) : Farewell [.sent (ascii "QUIT\r\n"), .received reply]

theorem quit_farewell (peer : Peer) (smtp : SmtpSocket) :
    ∃ farewell, (quit peer smtp).trace = smtp.trace ++ farewell ∧ Farewell farewell := by
  by_cases absent : smtp.hSocket < 0
  · exact ⟨[], by simp [quit, absent], .silent⟩
  · by_cases accepted : peer.accepts smtp.trace.attempts = true
    · have traced : (quit peer smtp).trace = smtp.trace ++ [.sent (ascii "QUIT\r\n"), .received
          (peer.replies (Trace.received (smtp.trace ++ [.sent (ascii "QUIT\r\n")])).length)] := by
        simp only [quit, if_neg absent, transmit, if_pos accepted, checkResponse, if_true,
          List.append_assoc, List.singleton_append]
      exact ⟨_, traced, .answered _⟩
    · refine ⟨[.failed (ascii "QUIT\r\n")], ?_, .failed⟩
      simp only [quit, if_neg absent, transmit, if_neg accepted, closeConnection,
        Bool.false_eq_true, if_false]
      split <;> rfl

/-- Whatever `recv` gives, what is sent is a prefix of the commands of the mail, each after
the expected replies to the ones before it, and then at most `QUIT`; the result is true
exactly if all expected replies have come. -/
theorem commands_follow_replies (around : Surroundings) (peer : Peer) (mail : Mail) :
    ∃ dialogue farewell, (sendMail around peer mail).2 = dialogue ++ farewell ∧
      Farewell farewell ∧
      dialogue.sent <+: mail.commands around ∧
      (∀ before command after, dialogue = before ++ .sent command :: after →
        SentAfter (mailTurns around mail) before command) ∧
      ((sendMail around peer mail).1 = true ↔
        Answered (mailTurns around mail) dialogue.received) := by
  have unanswered : ¬ Answered (mailTurns around mail) [] := by
    intro answered
    cases answered
  rw [sendMail]
  split
  · refine ⟨[], [], rfl, .silent, List.nil_prefix, ?_, ?_⟩
    · intro before command after split
      simp at split
    · simp [Trace.received, unanswered]
  · next atSymbolPos at_sign =>
      rcases quit_farewell peer (converseMail around peer mail atSymbolPos).2 with
        ⟨farewell, trace, quits⟩
      refine ⟨(converseMail around peer mail atSymbolPos).2.trace, farewell, trace, quits, ?_⟩
      by_cases reachable : Reachable around.host
      · have held : ∃ events, (converse peer (mailTurns around mail) []).2 = [] ++ events ∧
            Dialogue (mailTurns around mail) events
              (converse peer (mailTurns around mail) []).1 := converse_dialogue _ _
        rcases held with ⟨events, events_eq, dialogue⟩
        rw [List.nil_append] at events_eq
        have talked : _ ∧ (converseMail around peer mail atSymbolPos).2.trace = _ ∧ _ :=
          converseMail_talks reachable at_sign
        rw [talked.2.1, events_eq, talked.1, ← commands_mailTurns]
        exact ⟨dialogue.sent_prefix, fun _ _ _ split => dialogue.sent_after split,
          dialogue.result_iff⟩
      · rw [converseMail_unreachable reachable]
        refine ⟨List.nil_prefix, ?_, ?_⟩
        · intro before command after split
          simp [opened, create] at split
        · simp [opened, create, Trace.received, unanswered]

end SmtpSocket

end MyBookSources.SendMail
