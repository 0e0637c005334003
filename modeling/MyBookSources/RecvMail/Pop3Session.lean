import MyBookSources.Foundation.Conversation
import MyBookSources.RecvMail.LogonCommands
import MyBookSources.RecvMail.RecordedParts

/-! # POP3 sessions

The calls of `Pop3Socket` in any order, over any number of connections. Whatever the servers do
and however the replies are cut, on each connection the client talks in lock step.
-/

namespace MyBookSources.RecvMail

open LockStep (Trace Event Phase conversation)
open Polling (Poll)

/-- What `socket`, the search for the host and `connect` come to. -/
structure Host where
  socket : Int
  found : Bool
  answers : Bool

namespace Pop3Socket

def create : Pop3Socket := ⟨INVALID_SOCKET, false, [], [], [], [], false, []⟩

/-- `setsockopt` only sets how long calls wait. Nothing has gone over a new socket. -/
def connect (host : Host) (peer : Peer) (polls : Nat) (pop3 : Pop3Socket) : Result :=
  let pop3 := { pop3.close with hSocket := host.socket, trace := [] }
  if pop3.hSocket = INVALID_SOCKET then (some false, pop3)
  else if !host.found then (some false, pop3)
  else if !host.answers then (some false, pop3)
  else andThen (recvData peer polls) pop3 verified

def getStat (peer : Peer) (polls : Nat) (pop3 : Pop3Socket) : Result :=
  if pop3.hSocket = INVALID_SOCKET then (some false, pop3)
  else
    andThen (request peer polls false) { pop3 with strSend := ascii "STAT\r\n" } verified

/-- Nobody looks at what `request` returns. -/
def quit (peer : Peer) (polls : Nat) (pop3 : Pop3Socket) : Result :=
  if pop3.hSocket = INVALID_SOCKET then (some true, pop3)
  else
    match request peer polls false { pop3 with strSend := ascii "QUIT \r\n" } with
    | (none, pop3) => (none, pop3)
    | (some _, pop3) => (some true, pop3)

def retrCommand (index : Int) : Bytes := ascii "RETR " ++ Decimal.text index ++ ascii "\r\n"

/-- `getMail` up to the analysis of what it has received. -/
def retrieve (peer : Peer) (polls : Nat) (index : Int) (pop3 : Pop3Socket) : Result :=
  if pop3.hSocket = INVALID_SOCKET then (some false, pop3)
  else andThen (request peer polls true) (pop3.print 32 (retrCommand index)) verified

end Pop3Socket

/-- The socket, and the static members of `MailHelper`. -/
structure MailClient where
  pop3 : Pop3Socket
  helper : MailHelper

namespace MailClient

def onSocket (call : Pop3Socket → Pop3Socket.Result) (client : MailClient) :
    Option Bool × MailClient :=
  ((call client.pop3).1, { client with pop3 := (call client.pop3).2 })

def getMail (platform : Platform) (peer : Peer) (polls : Nat) (index : Int)
    (client : MailClient) : Option Bool × MailClient :=
  match client.onSocket (Pop3Socket.retrieve peer polls index) with
  | (some true, client) =>
      match client.helper.analyzeBody platform client.pop3.strRecv with
      | some (analyzed, _, helper) => (some analyzed, { client with helper := helper })
      | none => (none, client)
  | other => other

inductive Call
  | connect (host : Host)
  | logon (pszUser pszPassword : Bytes)
  | getStat
  | getList
  | getHeader (timeItem : TimeItem) (index : Int)
  | getMail (index : Int)
  | quit
  | close

def perform (platform : Platform) (peer : Peer) (polls : Nat) (client : MailClient) :
    Call → Option Bool × MailClient
  | .connect host => client.onSocket (Pop3Socket.connect host peer polls)
  | .logon pszUser pszPassword =>
      client.onSocket (Pop3Socket.logon peer polls pszUser pszPassword)
  | .getStat => client.onSocket (Pop3Socket.getStat peer polls)
  | .getList => client.onSocket (Pop3Socket.getList peer polls)
  | .getHeader timeItem index =>
      client.onSocket (Pop3Socket.getHeader platform timeItem peer polls index)
  | .getMail index => client.getMail platform peer polls index
  | .quit => client.onSocket (Pop3Socket.quit peer polls)
  | .close => (some true, { client with pop3 := client.pop3.close })

/-- A call, with the server it meets and the polls it takes to return. -/
structure Label where
  call : Call
  platform : Platform
  peer : Peer
  polls : Nat

def step (client : MailClient) (label : Label) : Option MailClient :=
  match client.perform label.platform label.peer label.polls label.call with
  | (some _, client) => some client
  | (none, _) => none

end MailClient

def mailClientMachine : Machine MailClient MailClient.Label :=
  .ofPartial MailClient.step

/-! ## Replies -/

/-- The commands whose reply ends with a line that is a dot. -/
def multiline (command : Bytes) : Bool :=
  [ascii "LIST", ascii "TOP ", ascii "RETR "].any fun name => name.isPrefixOf command

def terminator (command : Bytes) : Bytes :=
  if multiline command then ascii "\r\n.\r\n" else ascii "\r\n"

def Complete (command reply : Bytes) : Prop := contains reply (terminator command) = true

namespace Pop3Socket

def listening : Option Bytes → Bytes → Phase Bytes Byte
  | none, heard => .greeting heard
  | some command, heard => .asked command heard

/-- The trace of the socket is a conversation that has come to this phase. -/
def Stands (pop3 : Pop3Socket) (phase : Phase Bytes Byte) : Prop :=
  (conversation Complete).Transitions (.greeting []) pop3.trace phase

theorem hear_listening (asked : Option Bytes) (heard bytes : Bytes) :
    (listening asked heard).hear (.data bytes) = listening asked (heard ++ bytes) := by
  cases asked with
  | none => rfl
  | some command => rfl

theorem hear_listening_quiet (asked : Option Bytes) (heard : Bytes) :
    (listening asked heard).hear .quiet = listening asked heard := by
  cases asked with
  | none => simp [listening, Phase.hear, Poll.items]
  | some command => simp [listening, Phase.hear, Poll.items]

theorem Stands.poll {asked : Option Bytes} {marker : Bytes} {pop3 : Pop3Socket}
    (stands : pop3.Stands (listening asked pop3.strRecv))
    (ends : ∀ command, asked = some command → terminator command = marker)
    (waits : contains pop3.strRecv marker = false) (poll : Poll Byte) :
    Stands { pop3 with trace := pop3.trace ++ [.received poll] }
      ((listening asked pop3.strRecv).hear poll) := by
  apply stands.snoc
  refine ⟨?_, rfl⟩
  cases asked with
  | none => trivial
  | some command =>
      change ¬ contains pop3.strRecv (terminator command) = true
      rw [ends command rfl, waits]
      nofun

/-- The client has listened on: what it has heard is in `m_strRecv`, with the marker in it if the
call has succeeded. -/
def Listened (asked : Option Bytes) (marker : Bytes) (result : Result) : Prop :=
  ∃ phase, result.2.Stands phase ∧
    (phase = listening asked result.2.strRecv ∧
        (result.1 = some true → contains result.2.strRecv marker = true) ∨
      result.2.hSocket = INVALID_SOCKET)

theorem recvLoop_stands (peer : Peer) {asked : Option Bytes} {marker : Bytes}
    (ends : ∀ command, asked = some command → terminator command = marker)
    (polls tries : Nat) {pop3 : Pop3Socket} (stands : pop3.Stands (listening asked pop3.strRecv))
    (waits : contains pop3.strRecv marker = false) :
    Listened asked marker (recvLoop peer marker polls tries pop3) := by
  fun_induction recvLoop peer marker polls tries pop3 with
  | case1 tries pop3 =>
      refine ⟨_, stands, .inl ⟨rfl, fun found => ?_⟩⟩
      cases found
  | case2 polls pop3 poll next quiet =>
      have heard : next.Stands ((listening asked pop3.strRecv).hear poll) :=
        stands.poll ends waits poll
      rw [quiet, hear_listening_quiet] at heard
      refine ⟨_, heard, .inl ⟨rfl, fun found => ?_⟩⟩
      exact Option.some.inj found
  | case3 polls tries pop3 poll next quiet left induction =>
      have heard : next.Stands ((listening asked pop3.strRecv).hear poll) :=
        stands.poll ends waits poll
      rw [quiet, hear_listening_quiet] at heard
      exact induction heard waits
  | case4 polls tries pop3 poll next error =>
      exact ⟨_, stands.poll ends waits poll, .inr rfl⟩
  | case5 polls tries pop3 poll next bytes data received found =>
      have heard : next.Stands ((listening asked pop3.strRecv).hear poll) :=
        stands.poll ends waits poll
      rw [data, hear_listening] at heard
      exact ⟨_, heard, .inl ⟨rfl, fun _ => found⟩⟩
  | case6 polls tries pop3 poll next bytes data received missing induction =>
      have heard : next.Stands ((listening asked pop3.strRecv).hear poll) :=
        stands.poll ends waits poll
      rw [data, hear_listening] at heard
      exact induction heard (Bool.eq_false_iff.mpr missing)

/-! ## Calls -/

/-- The socket is closed, or the client may send: what it has in `m_strRecv` is all of the reply to
the last command that went out. -/
def Rested (pop3 : Pop3Socket) : Prop :=
  ∃ phase, pop3.Stands phase ∧
    (pop3.hSocket ≠ INVALID_SOCKET → phase.Free Complete ∧
      ∀ command heard, phase = .asked command heard → pop3.strRecv = heard)

def Goes (result : Result) : Prop :=
  (∃ phase, result.2.Stands phase) ∧ (result.1 ≠ none → result.2.Rested)

theorem Rested.goes {pop3 : Pop3Socket} (rested : pop3.Rested) (returned : Option Bool) :
    Goes (returned, pop3) := by
  rcases rested with ⟨phase, stands, free⟩
  exact ⟨⟨phase, stands⟩, fun _ => ⟨phase, stands, free⟩⟩

theorem Stands.closed {pop3 : Pop3Socket} {phase : Phase Bytes Byte} (stands : pop3.Stands phase)
    (closed : pop3.hSocket = INVALID_SOCKET) : pop3.Rested :=
  ⟨phase, stands, fun still => absurd closed still⟩

theorem Goes.andThen {call rest : Pop3Socket → Result} {pop3 : Pop3Socket}
    (first : Goes (call pop3)) (next : ∀ after, Rested after → Goes (rest after)) :
    Goes (andThen call pop3 rest) := by
  rw [Pop3Socket.andThen]
  split
  · next after going =>
      rw [going] at first
      exact next after (first.2 (Option.some_ne_none true))
  · next after failed =>
      rw [failed] at first
      exact first
  · next after waiting =>
      rw [waiting] at first
      exact first

theorem receive_stands (peer : Peer) {asked : Option Bytes} {marker : Bytes}
    (ends : ∀ command, asked = some command → terminator command = marker)
    (some_byte : contains [] marker = false) (tries polls : Nat) {pop3 : Pop3Socket}
    (stands : pop3.Stands (listening asked [])) :
    Listened asked marker (receive peer marker tries polls pop3) := by
  rw [receive]
  split
  · next closed => exact ⟨_, stands, .inr closed⟩
  · exact recvLoop_stands peer ends polls tries stands some_byte

theorem reply_stands (peer : Peer) (polls : Nat) {command : Bytes} {pop3 : Pop3Socket}
    (stands : pop3.Stands (.asked command [])) :
    Listened (some command) (terminator command)
      (if multiline command then recvBody peer polls pop3 else recvData peer polls pop3) := by
  have ends : ∀ other, some command = some other → terminator other = terminator command := by
    rintro other ⟨⟩
    rfl
  cases kind : multiline command with
  | true =>
      have dot : terminator command = ascii "\r\n.\r\n" := by
        rw [terminator, kind]
        rfl
      rw [dot] at ends ⊢
      exact receive_stands peer ends (by decide) 20 polls stands
  | false =>
      have line : terminator command = ascii "\r\n" := by
        rw [terminator, kind]
        rfl
      rw [line] at ends ⊢
      exact receive_stands peer ends (by decide) 5 polls stands

theorem request_goes (peer : Peer) (polls : Nat) {pop3 : Pop3Socket} (rested : pop3.Rested)
    {toRecvBody : Bool} (kind : multiline pop3.strSend = toRecvBody) :
    Goes (request peer polls toRecvBody pop3) := by
  rw [request]
  split
  · exact rested.goes _
  · split
    · exact rested.goes _
    · next opened _ =>
        rcases rested with ⟨phase, stands, free⟩
        have next := (free opened).1
        dsimp only
        split
        · have asked : Stands { pop3 with
              strRecv := []
              trace := pop3.trace ++ [.sent pop3.strSend] } (.asked pop3.strSend []) :=
            stands.snoc ⟨next, rfl⟩
          have replied := reply_stands peer polls asked
          rw [kind] at replied
          rcases replied with ⟨after, talked, here⟩
          split
          · next last failed =>
              rw [failed] at talked
              have closed : last.close.Stands after := talked
              exact ⟨⟨after, closed⟩, fun _ => closed.closed rfl⟩
          · next other =>
              refine ⟨⟨after, talked⟩, fun returned => ⟨after, talked, fun still => ?_⟩⟩
              rcases here with ⟨rfl, found⟩ | closed
              · have succeeded := Option.ne_none_iff_exists'.mp returned
                rcases succeeded with ⟨false | true, result⟩
                · exact (other _ (Prod.ext result rfl)).elim
                · refine ⟨found result, ?_⟩
                  rintro command heard ⟨⟩
                  rfl
              · exact absurd closed still
        · apply Rested.goes
          refine ⟨.refused, stands.snoc ⟨next, rfl⟩, fun _ => ⟨trivial, ?_⟩⟩
          intro command heard same
          cases same

theorem verified_goes {pop3 : Pop3Socket} (rested : pop3.Rested) : Goes (verified pop3) :=
  rested.goes _

/-- A new socket has nothing to do with what went over the one before it. -/
theorem connect_goes (host : Host) (peer : Peer) (polls : Nat) (pop3 : Pop3Socket) :
    Goes (connect host peer polls pop3) := by
  have fresh : Stands { pop3.close with hSocket := host.socket, trace := [] } (.greeting []) :=
    .nil _
  have rested : Rested { pop3.close with hSocket := host.socket, trace := [] } :=
    ⟨_, fresh, fun _ => ⟨trivial, nofun⟩⟩
  rw [connect]
  dsimp only
  split
  · exact rested.goes _
  · split
    · exact rested.goes _
    · split
      · exact rested.goes _
      · apply Goes.andThen
        · have none : ∀ command, (none : Option Bytes) = some command →
              terminator command = ascii "\r\n" := nofun
          have greeted := receive_stands peer none (by decide) 5 polls fresh
          rcases greeted with ⟨after, talked, here⟩
          refine ⟨⟨after, talked⟩, fun _ => ⟨after, talked, fun still => ?_⟩⟩
          rcases here with ⟨rfl, _⟩ | closed
          · exact ⟨trivial, nofun⟩
          · exact absurd closed still
        · intro after rested
          exact verified_goes rested

theorem getStat_goes (peer : Peer) (polls : Nat) {pop3 : Pop3Socket} (rested : pop3.Rested) :
    Goes (getStat peer polls pop3) := by
  rw [getStat]
  split
  · exact rested.goes _
  · apply Goes.andThen
    · apply request_goes peer polls
      · exact rested
      · rfl
    · intro after rested
      exact verified_goes rested

theorem logon_goes (peer : Peer) (polls : Nat) (pszUser pszPassword : Bytes) {pop3 : Pop3Socket}
    (rested : pop3.Rested) : Goes (logon peer polls pszUser pszPassword pop3) := by
  rw [logon]
  split
  · exact rested.goes _
  · apply Goes.andThen
    · apply request_goes peer polls
      · exact rested
      · rfl
    · intro asked rested
      apply Goes.andThen (verified_goes rested)
      intro accepted rested
      apply Goes.andThen
      · apply request_goes peer polls
        · exact rested
        · rfl
      · intro answered rested
        apply Goes.andThen (verified_goes rested)
        intro last rested
        exact Rested.goes rested _

theorem getList_goes (peer : Peer) (polls : Nat) {pop3 : Pop3Socket} (rested : pop3.Rested) :
    Goes (getList peer polls pop3) := by
  rw [getList]
  split
  · exact rested.goes _
  · apply Goes.andThen
    · apply request_goes peer polls
      · exact rested
      · rfl
    · intro asked rested
      apply Goes.andThen (verified_goes rested)
      intro last rested
      exact Rested.goes rested _

theorem Rested.setTag {pop3 : Pop3Socket} (rested : pop3.Rested)
    (mapString : List (Bytes × Bytes)) (tag : Bytes) {set : Bytes → Pop3Socket → Pop3Socket}
    (kept : ∀ value pop3, Rested pop3 → Rested (set value pop3)) :
    Rested (setTag mapString tag set pop3) := by
  rw [Pop3Socket.setTag]
  split
  · next value _ => exact kept value pop3 rested
  · exact rested

theorem Rested.readHeader {pop3 : Pop3Socket} (rested : pop3.Rested) (platform : Platform)
    (timeItem : TimeItem) (index : Int) : Rested (readHeader platform timeItem index pop3) := by
  apply Rested.setTag
  · apply Rested.setTag
    · apply Rested.setTag
      · apply Rested.setTag rested
        intro value pop3 rested
        rw [setDate]
        split
        · exact rested
        · exact rested
      · intro value pop3 rested
        exact rested
    · intro value pop3 rested
      rw [setSender]
      split
      · exact rested
      · exact rested
  · intro value pop3 rested
    exact rested

theorem getHeader_goes (platform : Platform) (timeItem : TimeItem) (peer : Peer) (polls : Nat)
    (index : Int) {pop3 : Pop3Socket} (rested : pop3.Rested) :
    Goes (getHeader platform timeItem peer polls index pop3) := by
  rw [getHeader]
  split
  · exact rested.goes _
  · apply Goes.andThen
    · apply request_goes peer polls
      · exact rested
      · rfl
    · intro last rested
      exact (rested.readHeader platform timeItem index).goes _

theorem retrieve_goes (peer : Peer) (polls : Nat) (index : Int) {pop3 : Pop3Socket}
    (rested : pop3.Rested) : Goes (retrieve peer polls index pop3) := by
  rw [retrieve]
  split
  · exact rested.goes _
  · apply Goes.andThen
    · apply request_goes peer polls
      · exact rested
      · rfl
    · intro after rested
      exact verified_goes rested

theorem quit_goes (peer : Peer) (polls : Nat) {pop3 : Pop3Socket} (rested : pop3.Rested) :
    Goes (quit peer polls pop3) := by
  rw [quit]
  split
  · exact rested.goes _
  · have asked : Goes (request peer polls false { pop3 with strSend := ascii "QUIT \r\n" }) := by
      apply request_goes peer polls
      · exact rested
      · rfl
    split
    · next last waiting =>
        rw [waiting] at asked
        exact asked
    · next returned last ended =>
        rw [ended] at asked
        exact Rested.goes (asked.2 nofun) _

end Pop3Socket

/-! ## Whole runs -/

namespace MailClient

open Pop3Socket (Goes Rested)

theorem getMail_goes (platform : Platform) (peer : Peer) (polls : Nat) (index : Int)
    {client : MailClient} (rested : client.pop3.Rested) :
    Goes ((client.getMail platform peer polls index).1,
      (client.getMail platform peer polls index).2.pop3) := by
  have retrieved := Pop3Socket.retrieve_goes peer polls index rested
  rw [getMail, onSocket]
  generalize Pop3Socket.retrieve peer polls index client.pop3 = result at retrieved
  rcases result with ⟨none | succeeded, pop3⟩
  · exact retrieved
  · have rested := retrieved.2 nofun
    cases succeeded with
    | false => exact rested.goes _
    | true =>
        dsimp only
        split
        · exact rested.goes _
        · exact rested.goes _

theorem perform_goes (platform : Platform) (peer : Peer) (polls : Nat) {client : MailClient}
    (rested : client.pop3.Rested) (call : Call) :
    Goes ((client.perform platform peer polls call).1,
      (client.perform platform peer polls call).2.pop3) := by
  cases call with
  | connect host => exact Pop3Socket.connect_goes host peer polls client.pop3
  | logon pszUser pszPassword => exact Pop3Socket.logon_goes peer polls _ _ rested
  | getStat => exact Pop3Socket.getStat_goes peer polls rested
  | getList => exact Pop3Socket.getList_goes peer polls rested
  | getHeader timeItem index =>
      exact Pop3Socket.getHeader_goes platform timeItem peer polls index rested
  | getMail index => exact getMail_goes platform peer polls index rested
  | quit => exact Pop3Socket.quit_goes peer polls rested
  | close =>
      rcases rested with ⟨phase, stands, _⟩
      have closed : client.pop3.close.Stands phase := stands
      exact (closed.closed rfl).goes _

def create : MailClient := ⟨.create, .create⟩

theorem create_rested : create.pop3.Rested :=
  ⟨.greeting [], .nil _, fun opened => absurd rfl opened⟩

theorem rested_of_transitions {labels : List Label} {client : MailClient}
    (transitions : mailClientMachine.Transitions create labels client) : client.pop3.Rested := by
  apply transitions.invariant
  · intro before label after rested taken
    have goes := perform_goes label.platform label.peer label.polls rested label.call
    change step before label = some after at taken
    rw [step] at taken
    split at taken
    · next returned client ended =>
        rw [ended] at goes
        cases taken
        exact goes.2 nofun
    · cases taken
  · exact create_rested

/-- After any calls in any order, and at every moment of the call that follows, with any servers:
on the connection of that moment each command went out when the reply to the one before it had
come completely, and not a poll was made behind the end of a reply or behind an error. Where the
call returns and leaves the socket open, `m_strRecv` is what has come since the last command, and
the reply to it is complete. -/
theorem commands_in_lock_step {labels : List Label} {client : MailClient}
    (transitions : mailClientMachine.Transitions create labels client) (label : Label) :
    let result := client.perform label.platform label.peer label.polls label.call
    (∀ (earlier between later : Trace Bytes (Poll Byte)) command next, result.2.pop3.trace =
        earlier ++ .sent command :: (between ++ .sent next :: later) → between.sent = [] →
      Complete command between.heard) ∧
    (∀ (earlier between later : Trace Bytes (Poll Byte)) command poll, result.2.pop3.trace =
        earlier ++ .sent command :: (between ++ .received poll :: later) → between.sent = [] →
      ¬ Complete command between.heard) ∧
    (∀ (earlier later : Trace Bytes (Poll Byte)),
      result.2.pop3.trace = earlier ++ .received .error :: later → later = []) ∧
    (result.1 ≠ none → result.2.pop3.hSocket ≠ INVALID_SOCKET →
      ∀ (earlier since : Trace Bytes (Poll Byte)) command,
        result.2.pop3.trace = earlier ++ .sent command :: since → since.handed = [] →
          Complete command since.heard ∧ result.2.pop3.strRecv = since.heard) := by
  dsimp only
  have goes := perform_goes label.platform label.peer label.polls
    (rested_of_transitions transitions) label.call
  rcases goes with ⟨⟨phase, stands⟩, rests⟩
  refine ⟨?_, ?_, ?_, ?_⟩
  · intro earlier between later command next cut silent
    exact LockStep.answered_before_next stands cut silent
  · intro earlier between later command poll cut silent
    exact LockStep.incomplete_before_poll stands cut silent
  · intro earlier later cut
    exact LockStep.nothing_behind_error stands cut
  · intro returned opened earlier since command cut silent
    rcases rests returned with ⟨phase, stands, free⟩
    have behind := LockStep.transitions_behind_sent stands cut
    rcases free opened with ⟨answered, same⟩
    rcases LockStep.asked_of_transitions behind silent with rfl | rfl
    · exact ⟨answered, same _ _ rfl⟩
    · cases answered

/-- The answer to `USER` is there before `PASS` is sent. -/
theorem commands_in_lock_step_logon :
    ∃ client labels, mailClientMachine.Transitions create labels client ∧
      (client.perform asciiPlatform Pop3Socket.accepting 1
        (.logon (ascii "a") (ascii "b"))).2.pop3.trace =
          [.received (.data (ascii "+OK\r\n")), .sent (ascii "USER a\r\n"),
            .received (.data (ascii "+OK\r\n")), .sent (ascii "PASS b\r\n"),
            .received (.data (ascii "+OK\r\n"))] ∧
      Complete (ascii "USER a\r\n") (ascii "+OK\r\n") := by
  have ran : (step create ⟨.connect ⟨3, true, true⟩, asciiPlatform, Pop3Socket.accepting, 1⟩).map
      (fun client => (client.perform asciiPlatform Pop3Socket.accepting 1
        (.logon (ascii "a") (ascii "b"))).2.pop3.trace) =
          some [.received (.data (ascii "+OK\r\n")), .sent (ascii "USER a\r\n"),
            .received (.data (ascii "+OK\r\n")), .sent (ascii "PASS b\r\n"),
            .received (.data (ascii "+OK\r\n"))] := by
    decide +kernel
  rcases Option.map_eq_some_iff.mp ran with ⟨client, taken, trace⟩
  have transitions : mailClientMachine.Transitions create
      [⟨.connect ⟨3, true, true⟩, asciiPlatform, Pop3Socket.accepting, 1⟩] client :=
    .snoc (.nil _) taken
  have talked := commands_in_lock_step transitions
    ⟨.logon (ascii "a") (ascii "b"), asciiPlatform, Pop3Socket.accepting, 1⟩
  have answered := talked.1 [.received (.data (ascii "+OK\r\n"))]
    [.received (.data (ascii "+OK\r\n"))] [.received (.data (ascii "+OK\r\n"))]
    (ascii "USER a\r\n") (ascii "PASS b\r\n") trace rfl
  exact ⟨client, _, transitions, trace, answered⟩

end MailClient

end MyBookSources.RecvMail
