import MyBookSources.SendMail.SmtpDialogue

/-! # Replies in pieces

TCP delivers the replies of the server as a stream, which `recv` hands over in pieces of any
length. `checkResponse` takes each piece for one reply.
-/

namespace MyBookSources.SendMail

open LockStep

/-! ## Replies and their stream -/

structure Reply where
  code : Bytes
  continued : List Bytes
  last : Bytes
  digits : code.length = 3 ∧ ∀ digit ∈ code, 48 ≤ digit ∧ digit ≤ 57
  lines : ∀ line ∈ last :: continued, ∀ byte ∈ line, byte ≠ 13 ∧ byte ≠ 10

def Reply.text (reply : Reply) : Bytes :=
  reply.continued.flatMap (fun line => reply.code ++ ascii "-" ++ line ++ ascii "\r\n") ++
    (reply.code ++ ascii " " ++ reply.last ++ ascii "\r\n")

def replyStream (replies : List Reply) : Bytes := replies.flatMap Reply.text

/-- A way to cut the stream into results of `recv`. -/
structure Cutting (stream : Bytes) where
  pieces : List Bytes
  whole : pieces.flatten = stream
  fits : ∀ piece ∈ pieces, piece ≠ [] ∧ piece.length ≤ 1024

/-- What `recv` gives; after the last piece the server closes the connection. -/
def Cutting.received {stream : Bytes} (cutting : Cutting stream) (index : Nat) : Received :=
  if inside : index < cutting.pieces.length then
    .data cutting.pieces[index] (cutting.fits _ (List.getElem_mem inside)).2
  else .data [] (Nat.zero_le _)

def Cutting.peer {stream : Bytes} (cutting : Cutting stream) : Peer :=
  ⟨fun _ => true, cutting.received⟩

def Cutting.bytewise (stream : Bytes) : Cutting stream where
  pieces := stream.map fun byte => [byte]
  whole := by
    induction stream with
    | nil => rfl
    | cons byte rest induction => simp [induction]
  fits := by
    intro piece member
    rcases List.mem_map.mp member with ⟨byte, _, rfl⟩
    simp

def Cutting.codeFirst (stream : Bytes) (long : 3 ≤ stream.length) : Cutting stream where
  pieces := stream.take 3 :: (Cutting.bytewise (stream.drop 3)).pieces
  whole := by
    rw [List.flatten_cons, (Cutting.bytewise (stream.drop 3)).whole, List.take_append_drop]
  fits := by
    intro piece member
    rcases List.mem_cons.mp member with rfl | later
    · have three : (stream.take 3).length = 3 := by
        rw [List.length_take]
        omega
      constructor
      · apply List.ne_nil_of_length_pos
        omega
      · omega
    · exact (Cutting.bytewise (stream.drop 3)).fits piece later

theorem Reply.code_prefix (reply : Reply) : reply.code <+: reply.text := by
  rw [Reply.text]
  cases reply.continued with
  | nil =>
      simp only [List.flatMap_nil, List.nil_append, List.append_assoc]
      exact List.prefix_append _ _
  | cons line rest =>
      simp only [List.flatMap_cons, List.append_assoc]
      exact List.prefix_append _ _

/-- A stream begins with a code exactly if its first reply has it. -/
theorem prefix_replyStream_iff {code : Bytes} (three : code.length = 3) (replies : List Reply) :
    code <+: replyStream replies ↔ ∃ first ∈ replies.head?, first.code = code := by
  cases replies with
  | nil =>
      simp only [replyStream, List.flatMap_nil, List.head?_nil, Option.not_mem_none, false_and,
        exists_false, iff_false, List.prefix_nil]
      intro empty
      rw [empty] at three
      cases three
  | cons first rest =>
      have own : first.code <+: replyStream (first :: rest) :=
        first.code_prefix.trans (List.prefix_append _ _)
      constructor
      · intro begins
        refine ⟨first, rfl, ?_⟩
        have within := List.prefix_of_prefix_length_le own begins (by rw [first.digits.1, three])
        exact within.eq_of_length (by rw [first.digits.1, three])
      · rintro ⟨other, head, rfl⟩
        cases head
        exact own

namespace SmtpSocket

/-- The result of `sendMail` and the commands that it transmits. -/
def outcome (around : Surroundings) (mail : Mail) {stream : Bytes} (cutting : Cutting stream) :
    Bool × List Bytes :=
  ((sendMail around cutting.peer mail).1, (sendMail around cutting.peer mail).2.sent)

def Begins (around : Surroundings) (mail : Mail) : Prop :=
  Reachable around.host ∧ 64 ∈ mail.strFrom

/-- The first `count` results of `recv` begin with the first `count` codes of the mail. -/
def InStep (around : Surroundings) (mail : Mail) {stream : Bytes} (cutting : Cutting stream)
    (count : Nat) : Prop :=
  Expected (mailTurns around mail) cutting.received 0 count

variable {around : Surroundings} {mail : Mail} {stream : Bytes}

theorem mailTurns_talking (around : Surroundings) (mail : Mail) :
    ∀ turn ∈ (mailTurns around mail).tail, turn.sends ≠ [] := by
  have message : mail.message around.now ≠ [] := by
    apply List.ne_nil_of_length_pos
    simp [Mail.message, messageText, headerText, ascii]
  intro turn member
  simp only [mailTurns, connectTurns, logonTurns, mailFromTurns, rcptToTurns, sendTurns,
    List.cons_append, List.nil_append, List.tail_cons, List.mem_cons, List.mem_append,
    List.mem_map, List.not_mem_nil, or_false] at member
  rcases member with rfl | rfl | rfl | rfl | rfl | ⟨recipient, _, rfl⟩ | rfl | rfl
  · exact List.cons_ne_nil _ _
  · exact List.cons_ne_nil _ _
  · exact List.cons_ne_nil _ _
  · exact List.cons_ne_nil _ _
  · exact List.cons_ne_nil _ _
  · exact List.cons_ne_nil _ _
  · exact List.cons_ne_nil _ _
  · exact pieces_ne_nil message

theorem sent_quit (cutting : Cutting stream) (smtp : SmtpSocket) :
    (quit cutting.peer smtp).trace.sent =
      smtp.trace.sent ++ if smtp.hSocket < 0 then [] else [ascii "QUIT\r\n"] := by
  by_cases absent : smtp.hSocket < 0
  · simp [quit, absent]
  · simp [quit, absent, transmit, checkResponse, Cutting.peer, Trace.sent_append, Trace.sent]

theorem outcome_begins (begins : Begins around mail) (cutting : Cutting stream) :
    outcome around mail cutting =
      ((converse cutting.peer (mailTurns around mail) []).1,
        (converse cutting.peer (mailTurns around mail) []).2.sent ++ [ascii "QUIT\r\n"]) := by
  rcases begins with ⟨reachable, at_sign⟩
  rw [outcome, sendMail]
  cases position : mail.strFrom.idxOf? 64 with
  | none => exact absurd at_sign (List.idxOf?_eq_none_iff.mp position)
  | some atSymbolPos =>
      have talked : (converseMail around cutting.peer mail atSymbolPos).1 = _ ∧ _ ∧ _ :=
        converseMail_talks reachable position
      rcases talked with ⟨result, trace, socket⟩
      dsimp only
      rw [sent_quit, result, trace, if_neg (Int.not_lt.mpr socket)]

theorem outcome_not_begun (idle : ¬ Begins around mail) (left right : Cutting stream) :
    outcome around mail left = outcome around mail right := by
  unfold outcome sendMail
  cases position : mail.strFrom.idxOf? 64 with
  | none => rfl
  | some atSymbolPos =>
      have unreachable : ¬ Reachable around.host := by
        intro reachable
        have at_sign : 64 ∈ mail.strFrom := by
          by_contra absent
          rw [List.idxOf?_eq_none_iff.mpr absent] at position
          cases position
        exact idle ⟨reachable, at_sign⟩
      dsimp only
      rw [sent_quit, sent_quit, converseMail_unreachable unreachable,
        converseMail_unreachable unreachable]

/-- Two cuttings agree exactly if the results of `recv` leave the expected codes at the same
place. -/
theorem outcome_eq_iff (left right : Cutting stream) :
    outcome around mail left = outcome around mail right ↔
      (Begins around mail → ∀ count, count ≤ (mailTurns around mail).length →
        (InStep around mail left count ↔ InStep around mail right count)) := by
  by_cases begins : Begins around mail
  · rw [outcome_begins begins, outcome_begins begins, Prod.mk.injEq, List.append_left_inj,
      converse_agree_iff (fun _ => rfl) (fun _ => rfl) (mailTurns_talking around mail)]
    simp only [begins, forall_const]
    rfl
  · constructor
    · intro _ other
      exact absurd other begins
    · intro _
      exact outcome_not_begun begins left right

/-! ## Streams on which all cuttings agree -/

theorem beginsWith_data_iff {code : Bytes} (three : code.length = 3) (bytes : Bytes)
    (fits : bytes.length ≤ 1024) :
    beginsWith code (.data bytes fits) = true ↔ code <+: bytes := by
  simp only [beginsWith, Bool.and_eq_true, decide_eq_true_eq, beq_iff_eq]
  rw [List.prefix_iff_eq_take, three]
  constructor
  · rintro ⟨_, same⟩
    exact same.symm
  · intro same
    have length := congrArg List.length same
    rw [List.length_take, three] at length
    exact ⟨by omega, same.symm⟩

/-- The greeting is found exactly if the first piece begins with its code. -/
theorem inStep_one_iff (around : Surroundings) (mail : Mail) (cutting : Cutting stream) :
    InStep around mail cutting 1 ↔
      ∃ piece ∈ cutting.pieces.head?, ascii "220" <+: piece := by
  have first : InStep around mail cutting 1 ↔
      beginsWith (ascii "220") (cutting.received 0) = true := by
    constructor
    · intro inStep
      exact inStep 0 _ Nat.one_pos rfl
    · intro begins index turn inside at_index
      have zero : index = 0 := by omega
      subst zero
      cases at_index
      exact begins
  rw [first]
  rcases cutting with ⟨pieces, whole, fits⟩
  cases pieces with
  | nil => simp [Cutting.received, beginsWith]
  | cons piece rest =>
      simp only [Cutting.received, List.length_cons, Nat.zero_lt_succ, dite_true,
        List.getElem_cons_zero, List.head?_cons, Option.mem_some_iff, exists_eq_left']
      exact beginsWith_data_iff rfl _ _

theorem InStep.one {cutting : Cutting stream} {count : Nat}
    (inStep : InStep around mail cutting (count + 1)) : InStep around mail cutting 1 :=
  fun index turn inside at_index => inStep index turn (by omega) at_index

/-- A stream that does not begin with the greeting's code never gets past it. -/
theorem not_inStep_one (other : ¬ ascii "220" <+: stream) (cutting : Cutting stream) :
    ¬ InStep around mail cutting 1 := by
  rw [inStep_one_iff]
  rintro ⟨piece, first, begins⟩
  apply other
  rw [← cutting.whole]
  cases same : cutting.pieces with
  | nil => simp [same] at first
  | cons head rest =>
      rw [same] at first
      cases first
      exact begins.trans (List.prefix_append _ _)

/-- All cuttings of a stream agree exactly if it does not begin with the greeting's code. -/
theorem outcomes_eq_iff (around : Surroundings) (mail : Mail) (stream : Bytes) :
    (∀ left right : Cutting stream, outcome around mail left = outcome around mail right) ↔
      (Begins around mail → ¬ ascii "220" <+: stream) := by
  constructor
  · intro agree begins greeted
    have long : 3 ≤ stream.length := greeted.length_le
    have inStep : InStep around mail (Cutting.codeFirst stream long) 1 := by
      rw [inStep_one_iff]
      have code : ascii "220" = stream.take 3 := List.prefix_iff_eq_take.mp greeted
      exact ⟨stream.take 3, rfl, [], by rw [List.append_nil, ← code]⟩
    have behind : ¬ InStep around mail (Cutting.bytewise stream) 1 := by
      rw [inStep_one_iff]
      rintro ⟨piece, first, found⟩
      rcases List.mem_map.mp (List.mem_of_mem_head? first) with ⟨byte, _, rfl⟩
      have short := found.length_le
      simp [ascii] at short
    have same := (outcome_eq_iff _ _).mp
      (agree (Cutting.codeFirst stream long) (Cutting.bytewise stream)) begins 1
      (by simp [mailTurns, connectTurns])
    exact behind (same.mp inStep)
  · intro other left right
    rw [outcome_eq_iff]
    intro begins count _
    cases count with
    | zero =>
        constructor
        · intro _ index _ inside
          exact absurd inside (Nat.not_lt_zero _)
        · intro _ index _ inside
          exact absurd inside (Nat.not_lt_zero _)
    | succ count =>
        constructor
        · intro inStep
          exact absurd inStep.one (not_inStep_one (other begins) left)
        · intro inStep
          exact absurd inStep.one (not_inStep_one (other begins) right)

/-- Two cuttings of a reply stream agree exactly if their pieces leave the expected codes at
the same place; and all cuttings agree exactly if the stream does not begin with a greeting. -/
theorem same_outcome_iff (around : Surroundings) (mail : Mail) (replies : List Reply) :
    (∀ left right : Cutting (replyStream replies),
      outcome around mail left = outcome around mail right ↔
        (Begins around mail → ∀ count, count ≤ (mailTurns around mail).length →
          (InStep around mail left count ↔ InStep around mail right count))) ∧
      ((∀ left right : Cutting (replyStream replies),
          outcome around mail left = outcome around mail right) ↔
        (Begins around mail → ¬ ∃ first ∈ replies.head?, first.code = ascii "220")) := by
  constructor
  · intro left right
    exact outcome_eq_iff left right
  · rw [outcomes_eq_iff, prefix_replyStream_iff rfl]

def sampleSurroundings : Surroundings := ⟨⟨3, true, true⟩, 0, fun _ => 0⟩

def sampleMail : Mail :=
  ⟨ascii "smtp", ascii "a@b", ascii "secret", [ascii "c@d"], ascii "s", ascii "text"⟩

def greeting : Reply := ⟨ascii "220", [], ascii "ok", by decide +kernel, by decide +kernel⟩

/-- The greeting in one piece is answered, and in two pieces it is not. -/
theorem greeting_in_two_pieces_differs :
    ¬ ∀ around mail replies (left right : Cutting (replyStream replies)),
      outcome around mail left = outcome around mail right := by
  intro agree
  have same := agree sampleSurroundings sampleMail [greeting]
    ⟨[ascii "220 ok\r\n"], by decide, by decide⟩
    ⟨[ascii "22", ascii "0 ok\r\n"], by decide, by decide⟩
  have commands := congrArg Prod.snd same
  exact absurd commands (by decide)

end SmtpSocket

end MyBookSources.SendMail
