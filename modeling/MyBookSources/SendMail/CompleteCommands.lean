import MyBookSources.RecvMail.LogonCommands
import MyBookSources.SendMail.Base64Bounds
import MyBookSources.SendMail.SmtpDialogue

/-! # Commands and their buffers

Both mail clients print their commands to buffers of a fixed size on the stack. None of them
looks at whether the command fits: `snprintf` cuts it off, `encode` stops in front of the first
group without room, and `sprintf` goes on behind the buffer.
-/

namespace MyBookSources.SendMail

open LockStep

namespace SmtpSocket

/-! ## What a call hands to the socket -/

/-- However a call ends, it hands over these commands from the front, and all of them if it
returns true. -/
def HandsOver (call : SmtpSocket → Bool × SmtpSocket) (complete : List Bytes) : Prop :=
  ∀ smtp, ∃ events, (call smtp).2.trace = smtp.trace ++ events ∧ events.handed <+: complete ∧
    ((call smtp).1 = true → events.handed = complete)

def Holds (peer : Peer) (turns : List (Turn Bytes Received)) (smtp : SmtpSocket)
    (result : Bool × SmtpSocket) : Prop :=
  result.1 = (converse peer turns smtp.trace).1 ∧
    result.2.trace = (converse peer turns smtp.trace).2

theorem Talks.holds {peer : Peer} {call : SmtpSocket → Bool × SmtpSocket}
    {turns : List (Turn Bytes Received)} {smtp : SmtpSocket} {post : SmtpSocket → Prop}
    (talks : Talks peer call turns smtp post) : Holds peer turns smtp (call smtp) :=
  ⟨talks.result, talks.trace⟩

/-- A call whose runs hold a dialogue or say nothing hands over complete commands, whatever the
server does, exactly if those of its turns are. -/
theorem handsOver_iff {Place : Type} {call : Place → Peer → SmtpSocket → Bool × SmtpSocket}
    {turns : List (Turn Bytes Received)} (complete : List Bytes)
    (runs : ∀ place peer smtp, Holds peer turns smtp (call place peer smtp) ∨
      ((call place peer smtp).1 = false ∧ (call place peer smtp).2.trace = smtp.trace))
    (place : Place) {smtp : SmtpSocket} (quiet : smtp.trace = [])
    (talks : ∀ peer, Holds peer turns smtp (call place peer smtp))
    (answers : ∀ turn ∈ turns, ∃ reply, turn.expects reply = true) :
    (∀ place peer, HandsOver (call place peer) complete) ↔ commands turns = complete := by
  constructor
  · intro hands
    have chosen : ∀ index : Nat, ∃ reply, ∀ turn, turns[index]? = some turn →
        turn.expects reply = true := by
      intro index
      cases found : turns[index]? with
      | none =>
          refine ⟨.error, fun turn same => ?_⟩
          cases same
      | some turn =>
          rcases answers turn (List.mem_of_getElem? found) with ⟨reply, expected⟩
          refine ⟨reply, ?_⟩
          intro other same
          cases same
          exact expected
    rcases Classical.skolem.mp chosen with ⟨replies, expected⟩
    rcases talks ⟨fun _ => true, replies⟩ with ⟨result, trace⟩
    rcases hands place ⟨fun _ => true, replies⟩ smtp with ⟨events, same, _, whole⟩
    rcases @converse_dialogue _ _ ⟨fun _ => true, replies⟩ turns smtp.trace with
      ⟨others, added, dialogue⟩
    have ended : (converse ⟨fun _ => true, replies⟩ turns smtp.trace).1 = true := by
      apply converse_of_expected
      rw [quiet]
      intro index turn found
      rw [Trace.received, List.length_nil, Nat.zero_add]
      exact expected index turn found
    rw [trace, added, List.append_cancel_left_eq] at same
    rw [← whole (result.trans ended), ← same]
    exact (dialogue.handed_prefix.2 ended).symm
  · rintro rfl place peer smtp
    rcases runs place peer smtp with ⟨result, trace⟩ | ⟨result, trace⟩
    · rcases @converse_dialogue _ _ peer turns smtp.trace with ⟨events, added, dialogue⟩
      rw [trace, added, result]
      exact ⟨events, rfl, dialogue.handed_prefix⟩
    · rw [trace, result]
      refine ⟨[], (List.append_nil _).symm, List.nil_prefix, fun sent => ?_⟩
      cases sent

def connected : SmtpSocket := { create with hSocket := 0 }

theorem method_handsOver_iff {call : Peer → SmtpSocket → Bool × SmtpSocket}
    {turns : List (Turn Bytes Received)} (complete : List Bytes)
    (runs : ∀ peer smtp, Holds peer turns smtp (call peer smtp) ∨
      ((call peer smtp).1 = false ∧ (call peer smtp).2.trace = smtp.trace))
    (talks : ∀ peer, Holds peer turns connected (call peer connected))
    (answers : ∀ turn ∈ turns, ∃ reply, turn.expects reply = true) :
    (∀ peer, HandsOver (call peer) complete) ↔ commands turns = complete := by
  have same := handsOver_iff complete (fun _ : Unit => runs) () rfl talks answers
  rwa [forall_const] at same

/-! ## Commands that are printed -/

theorem printed_eq_iff (text : Bytes) : printed text = text ↔ text.length ≤ 255 :=
  List.take_eq_self_iff text

theorem length_printed_lt (text : Bytes) : (printed text).length < 256 := by
  rw [printed, List.length_take]
  omega

theorem heloCommand_eq_iff (url : Bytes) :
    heloCommand url = ascii "HELO " ++ cString url ++ ascii "\r\n" ↔
      (cString url).length ≤ 248 := by
  have front : (ascii "HELO ").length = 5 := by decide
  have back : (ascii "\r\n").length = 2 := by decide
  rw [heloCommand, printed_eq_iff, List.length_append, List.length_append, front, back]
  omega

theorem mailFromCommand_eq_iff (strFrom : Bytes) :
    mailFromCommand strFrom = ascii "MAIL FROM:<" ++ cString strFrom ++ ascii ">\r\n" ↔
      (cString strFrom).length ≤ 241 := by
  have front : (ascii "MAIL FROM:<").length = 11 := by decide
  have back : (ascii ">\r\n").length = 3 := by decide
  rw [mailFromCommand, printed_eq_iff, List.length_append, List.length_append, front, back]
  omega

theorem rcptToCommand_eq_iff (recipient : Bytes) :
    rcptToCommand recipient = ascii "rcpt to:  <" ++ recipient ++ ascii ">\r\n" ↔
      0 ∉ recipient ∧ recipient.length ≤ 241 := by
  have front : (ascii "rcpt to:  <").length = 11 := by decide
  have back : (ascii ">\r\n").length = 3 := by decide
  rw [rcptToCommand, ← cString_eq_iff]
  constructor
  · intro same
    have shorter : (cString recipient).length ≤ recipient.length :=
      (List.takeWhile_prefix _).length_le
    have length := congrArg List.length same
    rw [printed, List.length_take] at length
    simp only [List.length_append, front, back] at length
    have same : (cString recipient).length = recipient.length := by omega
    have whole : cString recipient = recipient := (List.takeWhile_prefix _).eq_of_length same
    exact ⟨whole, by omega⟩
  · rintro ⟨whole, short⟩
    rw [whole, printed_eq_iff, List.length_append, List.length_append, front, back]
    omega

/-! ## Credentials -/

open Base64Util (encode digit digit_eq firstValue secondValue thirdValue SignsHarmless
  groups_induction encode_one encode_two encode_three tableAt_first)

theorem digits_eq_iff (c1 c2 c3 : Byte) :
    (digit (firstValue c1) = digit (c1.toNat / 4) ∧
      digit (secondValue c1 c2) = digit (c1.toNat % 4 * 16 + c2.toNat / 16) ∧
      digit (thirdValue c2 c3) = digit (c2.toNat % 16 * 4 + c3.toNat / 64)) ↔
    c1.toNat < 128 ∧ (c2.toNat < 128 ∨ c1.toNat % 4 = 3) ∧
      (c3.toNat < 128 ∨ c2.toNat % 16 = 15) := by
  have bound1 := c1.toNat_lt
  have bound2 := c2.toNat_lt
  have bound3 := c3.toNat_lt
  simp only [digit_eq]
  rw [Base64.digit_inj (Base64Util.firstValue_lt c1) (by omega),
    Base64.digit_inj (Base64Util.secondValue_lt c1 c2) (by omega),
    Base64.digit_inj (Base64Util.thirdValue_lt c2 c3) (by omega)]
  simp only [firstValue, secondValue, thirdValue]
  split <;> split <;> split <;> omega

/-- With room for it, a text is encoded as it should be exactly if no sign gets in the way. -/
theorem encode_eq_iff {maxDest : Nat} (source : Bytes) {lenDest : Nat}
    (room : lenDest + 4 * ((source.length + 2) / 3) < maxDest) :
    encode (fun _ => 65) maxDest lenDest source = Base64.encode source ↔
      SignsHarmless source := by
  induction source using groups_induction generalizing lenDest with
  | nil => exact iff_of_true rfl trivial
  | one c1 =>
      have enough : lenDest + 4 < maxDest := by simpa using room
      rw [encode_one _ c1 enough]
      exact iff_of_true rfl trivial
  | two c1 c2 =>
      have enough : lenDest + 4 < maxDest := by simpa using room
      rw [encode_two _ c1 c2 enough]
      exact iff_of_true rfl trivial
  | group c1 c2 c3 rest induction =>
      simp only [List.length_cons] at room
      have first : Base64Util.tableAt (fun _ => 65)
          ((Base64Util.promoted c1).sshiftRight 2) = digit (firstValue c1) := by
        rw [tableAt_first, firstValue]
        split <;> rfl
      rw [encode_three _ c1 c2 c3 rest (by omega), first, SignsHarmless, ← digits_eq_iff,
        ← @induction (lenDest + 4) (by omega)]
      simp only [Base64.encode, Base64.groups, List.flatten_cons, List.cons_append,
        List.nil_append, List.cons.injEq, digit_eq, true_and, and_assoc]

theorem length_encode_lt (outside : Int → Byte) {maxDest lenDest : Nat} (source : Bytes)
    (room : lenDest < maxDest) :
    ∃ groups, (encode outside maxDest lenDest source).length = 4 * groups ∧
      lenDest + 4 * groups < maxDest := by
  induction source using groups_induction generalizing lenDest with
  | nil => exact ⟨0, rfl, room⟩
  | one c1 =>
      rw [encode]
      split
      · exact ⟨0, rfl, room⟩
      · exact ⟨1, rfl, by omega⟩
  | two c1 c2 =>
      rw [encode]
      split
      · exact ⟨0, rfl, room⟩
      · exact ⟨1, rfl, by omega⟩
  | group c1 c2 c3 rest induction =>
      rw [encode]
      split
      · exact ⟨0, rfl, room⟩
      · next more =>
          rcases @induction (lenDest + 4) (by omega) with ⟨groups, length, inside⟩
          refine ⟨groups + 1, ?_, by omega⟩
          rw [List.length_append, length]
          simp only [List.length_cons, List.length_nil]
          omega

theorem length_encode_credential (outside : Int → Byte) (source : Bytes) :
    (encode outside 64 0 source).length + 2 < 64 := by
  have room : 0 < 64 := by decide
  rcases length_encode_lt outside source room with ⟨groups, length, inside⟩
  omega

theorem length_encode (outside : Int → Byte) {maxDest lenDest : Nat} (source : Bytes)
    (room : lenDest + 4 * ((source.length + 2) / 3) < maxDest) :
    (encode outside maxDest lenDest source).length = 4 * ((source.length + 2) / 3) := by
  induction source using groups_induction generalizing lenDest with
  | nil => rfl
  | one c1 =>
      have enough : lenDest + 4 < maxDest := by simpa using room
      rw [encode_one outside c1 enough]
      simp
  | two c1 c2 =>
      have enough : lenDest + 4 < maxDest := by simpa using room
      rw [encode_two outside c1 c2 enough]
      simp
  | group c1 c2 c3 rest induction =>
      simp only [List.length_cons] at room
      rw [encode_three outside c1 c2 c3 rest (by omega)]
      simp only [List.length_cons]
      rw [induction (by omega)]
      omega

theorem length_base64 (source : Bytes) :
    (Base64.encode source).length = 4 * ((source.length + 2) / 3) := by
  induction source using groups_induction with
  | nil => rfl
  | one c1 => simp [Base64.encode, Base64.groups]
  | two c1 c2 => simp [Base64.encode, Base64.groups]
  | group c1 c2 c3 rest induction =>
      rw [Base64.encode] at induction ⊢
      rw [Base64.groups, List.flatten_cons, List.length_append, induction]
      simp only [List.length_cons, List.length_nil]
      omega

theorem digit_ne_zero {value : Nat} (small : value < 64) : 0 ≠ Base64.digit value :=
  (Base64.digit_ne small (.inl (by decide))).symm

theorem noZero_base64 (source : Bytes) : 0 ∉ Base64.encode source := by
  induction source using groups_induction with
  | nil => exact List.not_mem_nil
  | one c1 =>
      have bound1 := c1.toNat_lt
      simp only [Base64.encode, Base64.groups, List.flatten_cons, List.flatten_nil,
        List.append_nil, List.mem_cons, List.not_mem_nil, or_false, not_or]
      exact ⟨digit_ne_zero (by omega), digit_ne_zero (by omega), by decide, by decide⟩
  | two c1 c2 =>
      have bound1 := c1.toNat_lt
      have bound2 := c2.toNat_lt
      simp only [Base64.encode, Base64.groups, List.flatten_cons, List.flatten_nil,
        List.append_nil, List.mem_cons, List.not_mem_nil, or_false, not_or]
      exact ⟨digit_ne_zero (by omega), digit_ne_zero (by omega), digit_ne_zero (by omega),
        by decide⟩
  | group c1 c2 c3 rest induction =>
      have bound1 := c1.toNat_lt
      have bound2 := c2.toNat_lt
      have bound3 := c3.toNat_lt
      rw [Base64.encode] at induction ⊢
      simp only [Base64.groups, List.flatten_cons, List.mem_append, List.mem_cons,
        List.not_mem_nil, or_false, not_or]
      exact ⟨⟨digit_ne_zero (by omega), digit_ne_zero (by omega), digit_ne_zero (by omega),
        digit_ne_zero (by omega)⟩, induction⟩

/-- A credential that fits its buffer, and whose signs do no harm. -/
def Encodable (text : Bytes) : Prop :=
  (cString text).length ≤ 45 ∧ SignsHarmless (cString text)

instance (text : Bytes) : Decidable (Encodable text) := inferInstanceAs (Decidable (_ ∧ _))

/-- Whatever the memory around the table holds, the line of a credential is all of its base64
text exactly if it is encodable. -/
theorem encodedLine_eq_iff (text : Bytes) :
    (∀ outside, encodedLine outside text =
      Base64.encode (cString text) ++ ascii "\r\n") ↔ Encodable text := by
  rw [Encodable]
  constructor
  · intro lines
    have same : cString (encode (fun _ => 65) 64 0 (cString text)) =
        Base64.encode (cString text) := List.append_cancel_right (lines fun _ => 65)
    have cut : (cString (encode (fun _ => 65) 64 0 (cString text))).length ≤
        (encode (fun _ => 65) 64 0 (cString text)).length :=
      (List.takeWhile_prefix _).length_le
    have room := length_encode_credential (fun _ => 65) (cString text)
    have length := congrArg List.length same
    rw [length_base64] at length
    have short : (cString text).length ≤ 45 := by omega
    refine ⟨short, ?_⟩
    have enough : 0 + 4 * (((cString text).length + 2) / 3) < 64 := by omega
    have whole : cString (encode (fun _ => 65) 64 0 (cString text)) =
        encode (fun _ => 65) 64 0 (cString text) := by
      apply (List.takeWhile_prefix _).eq_of_length
      change (cString (encode (fun _ => 65) 64 0 (cString text))).length = _
      rw [length_encode _ _ enough, length]
    rw [← encode_eq_iff (cString text) enough, ← same, whole]
  · rintro ⟨short, harmless⟩ outside
    have enough : 0 + 4 * (((cString text).length + 2) / 3) < 64 := by omega
    have own := (encode_eq_iff (cString text) enough).mpr harmless
    rw [encodedLine, Base64Util.encode_of_signsHarmless outside (fun _ => 65) harmless enough,
      own, (cString_eq_iff _).mpr (noZero_base64 _)]

/-! ## The methods -/

def answer (code : String) : Received :=
  if fits : (ascii code).length ≤ 1024 then .data (ascii code) fits else .error

theorem turn_answered {code : String} (begins : beginsWith (ascii code) (answer code) = true)
    (sends : List Bytes) : ∃ reply, (turn sends code).expects reply = true :=
  ⟨answer code, begins⟩

theorem commands_rcptToTurns (recipients : List Bytes) :
    commands (rcptToTurns recipients) = recipients.map rcptToCommand := by
  simp only [commands, rcptToTurns, turn, List.flatMap_map]
  exact List.map_eq_flatMap.symm

theorem connect_runs (host : Host) (peer : Peer) (url : Bytes) (smtp : SmtpSocket) :
    Holds peer (connectTurns url) smtp (connect host peer url smtp) ∨
      ((connect host peer url smtp).1 = false ∧
        (connect host peer url smtp).2.trace = smtp.trace) := by
  have closed : (closeConnection smtp).trace = smtp.trace := by
    rw [closeConnection]
    split <;> rfl
  rw [connect]
  dsimp only
  split
  · exact .inr ⟨rfl, closed⟩
  · split
    · exact .inr ⟨rfl, closed⟩
    · split
      · exact .inr ⟨rfl, closed⟩
      · left
        unfold Holds
        rw [← closed]
        exact (greet_talks url).holds

theorem logon_runs (outside : Int → Byte) (peer : Peer) (user password : Bytes)
    (smtp : SmtpSocket) :
    Holds peer (logonTurns outside user password) smtp
        (logon outside peer user password smtp) ∨
      ((logon outside peer user password smtp).1 = false ∧
        (logon outside peer user password smtp).2.trace = smtp.trace) := by
  by_cases closed : smtp.hSocket < 0
  · right
    rw [logon, if_pos closed]
    exact ⟨rfl, rfl⟩
  · exact .inl (logon_talks outside user password (Int.not_lt.mp closed)).holds

theorem setMailFrom_runs (peer : Peer) (strFrom : Bytes) (smtp : SmtpSocket) :
    Holds peer (mailFromTurns strFrom) smtp (setMailFrom peer strFrom smtp) ∨
      ((setMailFrom peer strFrom smtp).1 = false ∧
        (setMailFrom peer strFrom smtp).2.trace = smtp.trace) := by
  by_cases closed : smtp.hSocket < 0
  · right
    rw [setMailFrom, if_pos closed]
    exact ⟨rfl, rfl⟩
  · exact .inl (setMailFrom_talks strFrom (Int.not_lt.mp closed)).holds

theorem setMailTo_runs (peer : Peer) (recipients : List Bytes) (smtp : SmtpSocket) :
    Holds peer (rcptToTurns recipients) smtp (setMailTo peer recipients smtp) ∨
      ((setMailTo peer recipients smtp).1 = false ∧
        (setMailTo peer recipients smtp).2.trace = smtp.trace) := by
  by_cases closed : smtp.hSocket < 0
  · right
    rw [setMailTo, if_pos closed]
    exact ⟨rfl, rfl⟩
  · exact .inl (setMailTo_talks recipients (Int.not_lt.mp closed)).holds

theorem connect_handsOver_iff (url : Bytes) :
    (∀ host peer, HandsOver (connect host peer url)
      [ascii "HELO " ++ cString url ++ ascii "\r\n"]) ↔ (cString url).length ≤ 248 := by
  have reachable : Reachable ⟨0, true, true⟩ := ⟨Int.le_refl 0, rfl, rfl⟩
  have talks : ∀ peer, Holds peer (connectTurns url) create
      (connect ⟨0, true, true⟩ peer url create) := by
    intro peer
    rw [connect_reachable reachable]
    exact (greet_talks url).holds
  have answers : ∀ turn ∈ connectTurns url, ∃ reply, turn.expects reply = true := by
    intro asked member
    simp only [connectTurns, List.mem_cons, List.not_mem_nil, or_false] at member
    rcases member with rfl | rfl <;> exact turn_answered (by decide) _
  have runs := fun host peer smtp => connect_runs host peer url smtp
  rw [handsOver_iff _ runs ⟨0, true, true⟩ rfl talks answers, ← heloCommand_eq_iff]
  simp [commands, connectTurns, turn]

theorem logon_handsOver_iff (user password : Bytes) :
    (∀ outside peer, HandsOver (logon outside peer user password)
      [ascii "AUTH LOGIN\r\n", Base64.encode (cString user) ++ ascii "\r\n",
        Base64.encode (cString password) ++ ascii "\r\n"]) ↔
      Encodable user ∧ Encodable password := by
  have each : ∀ outside, (∀ peer, HandsOver (logon outside peer user password)
      [ascii "AUTH LOGIN\r\n", Base64.encode (cString user) ++ ascii "\r\n",
        Base64.encode (cString password) ++ ascii "\r\n"]) ↔
      encodedLine outside user = Base64.encode (cString user) ++ ascii "\r\n" ∧
        encodedLine outside password = Base64.encode (cString password) ++ ascii "\r\n" := by
    intro outside
    have talks : ∀ peer, Holds peer (logonTurns outside user password) connected
        (logon outside peer user password connected) :=
      fun peer => (logon_talks outside user password (Int.le_refl 0)).holds
    have answers : ∀ turn ∈ logonTurns outside user password,
        ∃ reply, turn.expects reply = true := by
      intro asked member
      simp only [logonTurns, List.mem_cons, List.not_mem_nil, or_false] at member
      rcases member with rfl | rfl | rfl <;> exact turn_answered (by decide) _
    rw [method_handsOver_iff _ (fun peer smtp => logon_runs outside peer user password smtp)
      talks answers]
    simp [commands, logonTurns, turn]
  simp only [each]
  rw [forall_and, encodedLine_eq_iff, encodedLine_eq_iff]

theorem setMailFrom_handsOver_iff (strFrom : Bytes) :
    (∀ peer, HandsOver (setMailFrom peer strFrom)
      [ascii "MAIL FROM:<" ++ cString strFrom ++ ascii ">\r\n"]) ↔
      (cString strFrom).length ≤ 241 := by
  have talks : ∀ peer, Holds peer (mailFromTurns strFrom) connected
      (setMailFrom peer strFrom connected) :=
    fun peer => (setMailFrom_talks strFrom (Int.le_refl 0)).holds
  have answers : ∀ turn ∈ mailFromTurns strFrom, ∃ reply, turn.expects reply = true := by
    intro asked member
    rw [mailFromTurns, List.mem_singleton] at member
    rw [member]
    exact turn_answered (by decide) _
  rw [method_handsOver_iff _ (fun peer smtp => setMailFrom_runs peer strFrom smtp) talks answers,
    ← mailFromCommand_eq_iff]
  simp [commands, mailFromTurns, turn]

theorem setMailTo_handsOver_iff (recipients : List Bytes) :
    (∀ peer, HandsOver (setMailTo peer recipients)
      (recipients.map fun recipient =>
        ascii "rcpt to:  <" ++ recipient ++ ascii ">\r\n")) ↔
      ∀ recipient ∈ recipients, 0 ∉ recipient ∧ recipient.length ≤ 241 := by
  have talks : ∀ peer, Holds peer (rcptToTurns recipients) connected
      (setMailTo peer recipients connected) :=
    fun peer => (setMailTo_talks recipients (Int.le_refl 0)).holds
  have answers : ∀ turn ∈ rcptToTurns recipients, ∃ reply, turn.expects reply = true := by
    intro asked member
    rcases List.mem_map.mp member with ⟨recipient, _, rfl⟩
    exact turn_answered (by decide) _
  rw [method_handsOver_iff _ (fun peer smtp => setMailTo_runs peer recipients smtp) talks answers,
    commands_rcptToTurns, List.map_inj_left]
  simp only [rcptToCommand_eq_iff]

/-! ## Both clients -/

open RecvMail (Pop3Socket)

/-- For each method, what it hands over is complete, whatever the server does, exactly if its
arguments fit. The buffers of the SMTP client always hold what is written to them. -/
theorem commands_complete_iff (url user password strFrom : Bytes) (recipients : List Bytes)
    (pszUser pszPassword : Bytes) :
    ((∀ host peer, HandsOver (connect host peer url)
        [ascii "HELO " ++ cString url ++ ascii "\r\n"]) ↔ (cString url).length ≤ 248) ∧
    ((∀ outside peer, HandsOver (logon outside peer user password)
        [ascii "AUTH LOGIN\r\n", Base64.encode (cString user) ++ ascii "\r\n",
          Base64.encode (cString password) ++ ascii "\r\n"]) ↔
      Encodable user ∧ Encodable password) ∧
    ((∀ peer, HandsOver (setMailFrom peer strFrom)
        [ascii "MAIL FROM:<" ++ cString strFrom ++ ascii ">\r\n"]) ↔
      (cString strFrom).length ≤ 241) ∧
    ((∀ peer, HandsOver (setMailTo peer recipients)
        (recipients.map fun recipient =>
          ascii "rcpt to:  <" ++ recipient ++ ascii ">\r\n")) ↔
      ∀ recipient ∈ recipients, 0 ∉ recipient ∧ recipient.length ≤ 241) ∧
    ((∀ peer polls, Pop3Socket.HandsOver (Pop3Socket.logon peer polls pszUser pszPassword)
        [ascii "USER " ++ cString pszUser ++ ascii "\r\n",
          ascii "PASS " ++ cString pszPassword ++ ascii "\r\n"]) ↔
      (cString pszUser).length ≤ 24 ∧ (cString pszPassword).length ≤ 24) ∧
    (∀ text, (printed text).length < 256) ∧
    ∀ outside text, (encode outside 64 0 text).length + 2 < 64 :=
  ⟨connect_handsOver_iff url, logon_handsOver_iff user password, setMailFrom_handsOver_iff strFrom,
    setMailTo_handsOver_iff recipients, Pop3Socket.logon_handsOver_iff pszUser pszPassword,
    length_printed_lt, length_encode_credential⟩

/-- A host name of 249 letters loses its line end, a password of 46 its last one, and a mailbox
named with 25 letters leaves the buffer. -/
theorem long_arguments_cut :
    ¬ (∀ host peer, HandsOver (connect host peer (List.replicate 249 97))
      [ascii "HELO " ++ cString (List.replicate 249 97) ++ ascii "\r\n"]) ∧
    ¬ (∀ outside peer, HandsOver (logon outside peer (ascii "a") (List.replicate 46 97))
      [ascii "AUTH LOGIN\r\n", Base64.encode (cString (ascii "a")) ++ ascii "\r\n",
        Base64.encode (cString (List.replicate 46 97)) ++ ascii "\r\n"]) ∧
    ¬ (∀ peer polls, Pop3Socket.HandsOver
      (Pop3Socket.logon peer polls (List.replicate 25 97) (ascii "a"))
      [Pop3Socket.userCommand (List.replicate 25 97), Pop3Socket.passCommand (ascii "a")]) := by
  refine ⟨?_, ?_, ?_⟩
  · rw [connect_handsOver_iff]
    decide +kernel
  · rw [logon_handsOver_iff]
    decide +kernel
  · rw [Pop3Socket.logon_handsOver_iff]
    decide +kernel

end SmtpSocket

end MyBookSources.SendMail
