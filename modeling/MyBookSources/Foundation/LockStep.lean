import Mathlib.Data.List.Basic

/-! # Lock-step dialogues

A client sends the commands of a turn, waits for one reply, and goes on with the next turn
if the reply is one that the turn expects.
-/

namespace MyBookSources.LockStep

structure Turn (Command : Type u) (Reply : Type v) where
  sends : List Command
  expects : Reply → Bool

inductive Event (Command : Type u) (Reply : Type v)
  | sent (command : Command)
  | failed (command : Command)
  | received (reply : Reply)
  deriving DecidableEq

/-- How the transport answers: whether the n-th sending succeeds, and what the n-th
receiving gives. -/
structure Peer (Reply : Type v) where
  accepts : Nat → Bool
  replies : Nat → Reply

abbrev Trace (Command : Type u) (Reply : Type v) := List (Event Command Reply)

variable {Command : Type u} {Reply : Type v}

namespace Trace

def sent : Trace Command Reply → List Command
  | [] => []
  | .sent command :: rest => command :: sent rest
  | .failed _ :: rest => sent rest
  | .received _ :: rest => sent rest

def received : Trace Command Reply → List Reply
  | [] => []
  | .sent _ :: rest => received rest
  | .failed _ :: rest => received rest
  | .received reply :: rest => reply :: received rest

def attempts : Trace Command Reply → Nat
  | [] => 0
  | .sent _ :: rest => attempts rest + 1
  | .failed _ :: rest => attempts rest + 1
  | .received _ :: rest => attempts rest

/-- The commands that are handed to the transport, whether it takes them or not. -/
def handed : Trace Command Reply → List Command
  | [] => []
  | .sent command :: rest => command :: handed rest
  | .failed command :: rest => command :: handed rest
  | .received _ :: rest => handed rest

theorem handed_append (left right : Trace Command Reply) :
    handed (left ++ right) = handed left ++ handed right := by
  induction left with
  | nil => rfl
  | cons event rest induction =>
      cases event <;> simp [handed, induction]

@[simp] theorem handed_map (commands : List Command) :
    handed (commands.map .sent : Trace Command Reply) = commands := by
  induction commands with
  | nil => rfl
  | cons command rest induction => simp [handed, induction]

theorem sent_append (left right : Trace Command Reply) :
    sent (left ++ right) = sent left ++ sent right := by
  induction left with
  | nil => rfl
  | cons event rest induction =>
      cases event <;> simp [sent, induction]

theorem received_append (left right : Trace Command Reply) :
    received (left ++ right) = received left ++ received right := by
  induction left with
  | nil => rfl
  | cons event rest induction =>
      cases event <;> simp [received, induction]

@[simp] theorem sent_map (commands : List Command) :
    sent (commands.map .sent : Trace Command Reply) = commands := by
  induction commands with
  | nil => rfl
  | cons command rest induction => simp [sent, induction]

@[simp] theorem received_map (commands : List Command) :
    received (commands.map .sent : Trace Command Reply) = [] := by
  induction commands with
  | nil => rfl
  | cons command rest induction => simp [received, induction]

end Trace

def commands (turns : List (Turn Command Reply)) : List Command := turns.flatMap Turn.sends

/-- The replies are the expected ones of these turns, one for each. -/
def Answered (turns : List (Turn Command Reply)) (replies : List Reply) : Prop :=
  List.Forall₂ (fun turn reply => turn.expects reply = true) turns replies

/-- Before the command, all turns before its own have got a reply they expect, and exactly
the commands before it are sent. -/
def SentAfter (turns : List (Turn Command Reply)) (before : Trace Command Reply)
    (command : Command) : Prop :=
  ∃ done turn rest firsts, turns = done ++ turn :: rest ∧ firsts ++ [command] <+: turn.sends ∧
    before.sent = commands done ++ firsts ∧ Answered done before.received

def sendAll (peer : Peer Reply) :
    List Command → Trace Command Reply → Bool × Trace Command Reply
  | [], trace => (true, trace)
  | command :: rest, trace =>
      if peer.accepts trace.attempts then sendAll peer rest (trace ++ [.sent command])
      else (false, trace ++ [.failed command])

def takeTurn (peer : Peer Reply) (turn : Turn Command Reply) (trace : Trace Command Reply) :
    Bool × Trace Command Reply :=
  let (sent, trace) := sendAll peer turn.sends trace
  if sent then
    let reply := peer.replies trace.received.length
    (turn.expects reply, trace ++ [.received reply])
  else (false, trace)

def converse (peer : Peer Reply) :
    List (Turn Command Reply) → Trace Command Reply → Bool × Trace Command Reply
  | [], trace => (true, trace)
  | turn :: rest, trace =>
      let (going, trace) := takeTurn peer turn trace
      if going then converse peer rest trace else (false, trace)

variable {peer : Peer Reply}

theorem converse_append (left right : List (Turn Command Reply)) (trace : Trace Command Reply) :
    converse peer (left ++ right) trace =
      if (converse peer left trace).1 then converse peer right (converse peer left trace).2
      else converse peer left trace := by
  induction left generalizing trace with
  | nil => simp [converse]
  | cons turn rest induction =>
      simp only [List.cons_append, converse]
      by_cases going : (takeTurn peer turn trace).1 = true
      · simp only [going, ite_true]
        exact induction _
      · simp [going]

/-! ## What a dialogue does -/

/-- The events of a dialogue over these turns, and whether it came to their end. -/
inductive Dialogue : List (Turn Command Reply) → Trace Command Reply → Bool → Prop
  | ended : Dialogue [] [] true
  | unsent {turn rest firsts command} :
      firsts ++ [command] <+: turn.sends →
      Dialogue (turn :: rest) (firsts.map .sent ++ [.failed command]) false
  | unexpected {turn rest reply} :
      turn.expects reply = false →
      Dialogue (turn :: rest) (turn.sends.map .sent ++ [.received reply]) false
  | answered {turn rest reply later result} :
      turn.expects reply = true →
      Dialogue rest later result →
      Dialogue (turn :: rest) (turn.sends.map .sent ++ .received reply :: later) result

theorem sendAll_cases (commands : List Command) (trace : Trace Command Reply) :
    sendAll peer commands trace = (true, trace ++ commands.map .sent) ∨
      ∃ firsts command, firsts ++ [command] <+: commands ∧
        sendAll peer commands trace =
          (false, trace ++ (firsts.map .sent ++ [.failed command])) := by
  induction commands generalizing trace with
  | nil => simp [sendAll]
  | cons command rest induction =>
      simp only [sendAll]
      split
      · rcases induction (trace ++ [.sent command]) with all | ⟨firsts, last, within, failed⟩
        · left
          rw [all]
          simp
        · right
          refine ⟨command :: firsts, last, ?_, ?_⟩
          · exact List.cons_prefix_cons.mpr ⟨rfl, within⟩
          · rw [failed]
            simp
      · right
        exact ⟨[], command, by simp, rfl⟩

theorem converse_dialogue (turns : List (Turn Command Reply)) (trace : Trace Command Reply) :
    ∃ events, (converse peer turns trace).2 = trace ++ events ∧
      Dialogue turns events (converse peer turns trace).1 := by
  induction turns generalizing trace with
  | nil => exact ⟨[], by simp [converse], .ended⟩
  | cons turn rest induction =>
      simp only [converse, takeTurn]
      rcases sendAll_cases turn.sends trace with all | ⟨firsts, command, within, failed⟩
      · rw [all]
        simp only [if_true]
        generalize peer.replies (Trace.received (trace ++ turn.sends.map Event.sent)).length =
          reply
        cases expected : turn.expects reply with
        | true =>
            rcases induction (trace ++ turn.sends.map Event.sent ++ [.received reply]) with
              ⟨later, added, dialogue⟩
            rw [if_pos rfl]
            refine ⟨_, ?_, .answered expected dialogue⟩
            rw [added]
            simp
        | false =>
            rw [if_neg Bool.false_ne_true]
            refine ⟨_, ?_, .unexpected expected⟩
            simp
      · rw [failed]
        exact ⟨_, rfl, .unsent within⟩

/-- With a transport that takes all commands, and replies that the turns expect, a dialogue comes
to its end. -/
theorem converse_of_expected {replies : Nat → Reply} {turns : List (Turn Command Reply)}
    {trace : Trace Command Reply}
    (expected : ∀ (index : Nat) (turn : Turn Command Reply), turns[index]? = some turn →
      turn.expects (replies (trace.received.length + index)) = true) :
    (converse ⟨fun _ => true, replies⟩ turns trace).1 = true := by
  have taken : ∀ (commands : List Command) (trace : Trace Command Reply),
      sendAll ⟨fun _ => true, replies⟩ commands trace = (true, trace ++ commands.map .sent) := by
    intro commands
    induction commands with
    | nil => simp [sendAll]
    | cons command rest induction =>
        intro trace
        rw [sendAll, if_pos rfl, induction]
        simp
  induction turns generalizing trace with
  | nil => rfl
  | cons turn rest induction =>
      have first := expected 0 turn rfl
      rw [Nat.add_zero] at first
      have heard : (trace ++ turn.sends.map Event.sent).received = trace.received := by
        rw [Trace.received_append, Trace.received_map, List.append_nil]
      simp only [converse, takeTurn, taken, heard, first, if_true]
      apply induction
      intro index later found
      have next := expected (index + 1) later found
      rw [Trace.received_append, heard, List.length_append]
      rwa [Nat.add_comm index 1, ← Nat.add_assoc] at next

namespace Dialogue

variable {turns : List (Turn Command Reply)} {events : Trace Command Reply} {result : Bool}

theorem sent_prefix (dialogue : Dialogue turns events result) :
    events.sent <+: commands turns := by
  induction dialogue with
  | ended => exact List.nil_prefix
  | @unsent turn rest firsts command within =>
      have sent : Trace.sent (firsts.map .sent ++ [.failed command] : Trace Command Reply) =
          firsts := by
        rw [Trace.sent_append, Trace.sent_map]
        simp [Trace.sent]
      rw [sent]
      have first : firsts <+: turn.sends := (List.prefix_append firsts [command]).trans within
      exact first.trans (List.prefix_append _ _)
  | @unexpected turn rest reply _ =>
      rw [Trace.sent_append, Trace.sent_map]
      simp only [Trace.sent, List.append_nil]
      exact List.prefix_append _ _
  | @answered turn rest reply later result _ _ induction =>
      rw [Trace.sent_append, Trace.sent_map]
      exact (List.prefix_append_right_inj turn.sends).mpr induction

/-- A dialogue hands over the commands of its turns from the front, and all of them if it comes
to its end. -/
theorem handed_prefix (dialogue : Dialogue turns events result) :
    events.handed <+: commands turns ∧ (result = true → events.handed = commands turns) := by
  induction dialogue with
  | ended => exact ⟨List.nil_prefix, fun _ => rfl⟩
  | @unsent turn rest firsts command within =>
      have handed : Trace.handed (firsts.map .sent ++ [.failed command] : Trace Command Reply) =
          firsts ++ [command] := by
        rw [Trace.handed_append, Trace.handed_map]
        rfl
      rw [handed]
      exact ⟨within.trans (List.prefix_append _ _), nofun⟩
  | @unexpected turn rest reply _ =>
      rw [Trace.handed_append, Trace.handed_map]
      simp only [Trace.handed, List.append_nil]
      exact ⟨List.prefix_append _ _, nofun⟩
  | @answered turn rest reply later result _ _ induction =>
      rw [Trace.handed_append, Trace.handed_map]
      constructor
      · exact (List.prefix_append_right_inj turn.sends).mpr induction.1
      · intro going
        exact congrArg (turn.sends ++ ·) (induction.2 going)

/-- The dialogue comes to its end exactly if each turn got a reply it expects. -/
theorem result_iff (dialogue : Dialogue turns events result) :
    result = true ↔ Answered turns events.received := by
  induction dialogue with
  | ended => simp [Answered, Trace.received]
  | @unsent turn rest firsts command _ =>
      rw [Trace.received_append, Trace.received_map]
      simp only [Answered, Trace.received, List.append_nil, Bool.false_eq_true, false_iff]
      intro answered
      cases answered
  | @unexpected turn rest reply unexpected =>
      rw [Trace.received_append, Trace.received_map]
      simp [Answered, Trace.received, unexpected]
  | @answered turn rest reply later result expected _ induction =>
      rw [Trace.received_append, Trace.received_map, induction]
      simp [Answered, Trace.received, expected]

theorem split_sent {sends : List Command} {tail before after : Trace Command Reply}
    {command : Command}
    (split : sends.map .sent ++ tail = before ++ .sent command :: after) :
    (∃ firsts lasts, sends = firsts ++ command :: lasts ∧ before = firsts.map .sent) ∨
      ∃ further, before = sends.map .sent ++ further ∧
        tail = further ++ .sent command :: after := by
  induction sends generalizing before with
  | nil => exact .inr ⟨before, rfl, split⟩
  | cons first rest induction =>
      cases before with
      | nil =>
          simp only [List.map_cons, List.cons_append, List.nil_append, List.cons.injEq,
            Event.sent.injEq] at split
          left
          exact ⟨[], rest, by rw [split.1]; rfl, rfl⟩
      | cons event before =>
          simp only [List.map_cons, List.cons_append, List.cons.injEq] at split
          rcases split with ⟨rfl, split⟩
          rcases induction split with ⟨firsts, lasts, sends_eq, before_eq⟩ |
            ⟨further, before_eq, tail_eq⟩
          · left
            exact ⟨first :: firsts, lasts, by rw [sends_eq]; rfl, by rw [before_eq]; rfl⟩
          · right
            exact ⟨further, by rw [before_eq]; rfl, tail_eq⟩

theorem not_singleton_split {event last : Event Command Reply}
    {further after : Trace Command Reply} (different : event ≠ last) :
    [event] ≠ further ++ last :: after := by
  intro split
  cases further with
  | nil =>
      rw [List.nil_append, List.cons.injEq] at split
      exact different split.1
  | cons first further =>
      rw [List.cons_append, List.cons.injEq] at split
      simp at split

theorem sent_in_first {turn : Turn Command Reply} {rest : List (Turn Command Reply)}
    {before : Trace Command Reply} {earlier : List Command} {command : Command}
    (before_eq : before = earlier.map .sent) (within : earlier ++ [command] <+: turn.sends) :
    SentAfter (turn :: rest) before command := by
  refine ⟨[], turn, rest, earlier, rfl, within, ?_, ?_⟩
  · rw [before_eq, Trace.sent_map]
    rfl
  · rw [before_eq, Trace.received_map]
    exact .nil

theorem sent_after (dialogue : Dialogue turns events result) {before after command}
    (split : events = before ++ .sent command :: after) :
    SentAfter turns before command := by
  induction dialogue generalizing before with
  | ended => simp at split
  | @unsent turn rest firsts failed within =>
      rcases split_sent split with ⟨earlier, later, firsts_eq, before_eq⟩ | ⟨further, _, tail⟩
      · apply sent_in_first before_eq
        rw [firsts_eq] at within
        exact List.IsPrefix.trans ⟨later ++ [failed], by simp⟩ within
      · exact absurd tail (not_singleton_split (fun same => by cases same))
  | @unexpected turn rest reply _ =>
      rcases split_sent split with ⟨earlier, later, sends, before_eq⟩ | ⟨further, _, tail⟩
      · exact sent_in_first before_eq ⟨later, by simp [sends]⟩
      · exact absurd tail (not_singleton_split (fun same => by cases same))
  | @answered turn rest reply later result expected _ induction =>
      rcases split_sent split with ⟨earlier, others, sends, before_eq⟩ | ⟨further, before_eq, tail⟩
      · exact sent_in_first before_eq ⟨others, by simp [sends]⟩
      · cases further with
        | nil => cases tail
        | cons event further =>
            rw [List.cons_append, List.cons.injEq] at tail
            rcases tail with ⟨rfl, tail⟩
            rcases induction tail with ⟨done, own, others, firsts, turns_eq, within, sent, answered⟩
            refine ⟨turn :: done, own, others, firsts, by rw [turns_eq]; rfl, within, ?_, ?_⟩
            · rw [before_eq, Trace.sent_append, Trace.sent_map]
              simp [Trace.sent, sent, commands]
            · rw [before_eq, Trace.received_append, Trace.received_map]
              exact .cons expected answered

end Dialogue

/-! ## Transports that take every command -/

/-- The first `count` replies from `start` on are expected by the first `count` turns. -/
def Expected (turns : List (Turn Command Reply)) (replies : Nat → Reply) (start count : Nat) :
    Prop :=
  ∀ index turn, index < count → turns[index]? = some turn →
    turn.expects (replies (start + index)) = true

def answeredTurns : List (Turn Command Reply) → (Nat → Reply) → Nat → Nat
  | [], _, _ => 0
  | turn :: rest, replies, start =>
      if turn.expects (replies start) then answeredTurns rest replies (start + 1) + 1 else 0

theorem answeredTurns_le (turns : List (Turn Command Reply)) (replies : Nat → Reply)
    (start : Nat) : answeredTurns turns replies start ≤ turns.length := by
  induction turns generalizing start with
  | nil => exact Nat.le_refl 0
  | cons turn rest induction =>
      have further := induction (start + 1)
      simp only [answeredTurns, List.length_cons]
      split <;> omega

theorem le_answeredTurns_iff {turns : List (Turn Command Reply)} {count : Nat}
    (within : count ≤ turns.length) (replies : Nat → Reply) (start : Nat) :
    count ≤ answeredTurns turns replies start ↔ Expected turns replies start count := by
  induction turns generalizing start count with
  | nil =>
      have none : count = 0 := Nat.le_zero.mp within
      subst none
      simp [Expected]
  | cons turn rest induction =>
      cases count with
      | zero => simp [Expected]
      | succ count =>
          have tail := induction (Nat.le_of_succ_le_succ within) (start + 1)
          have split : Expected (turn :: rest) replies start (count + 1) ↔
              turn.expects (replies start) = true ∧ Expected rest replies (start + 1) count := by
            constructor
            · intro expected
              constructor
              · exact expected 0 turn (Nat.succ_pos _) rfl
              · intro index own inside at_index
                have here := expected (index + 1) own (Nat.succ_lt_succ inside) at_index
                rwa [Nat.add_right_comm start 1 index, Nat.add_assoc start index 1]
            · intro expected index own inside at_index
              cases index with
              | zero =>
                  cases at_index
                  exact expected.1
              | succ index =>
                  have here := expected.2 index own (Nat.lt_of_succ_lt_succ inside) at_index
                  rwa [Nat.add_right_comm start 1 index, Nat.add_assoc start index 1] at here
          rw [split, ← tail]
          simp only [answeredTurns]
          by_cases expected : turn.expects (replies start) = true
          · simp [expected]
          · simp [expected]

theorem sendAll_accepting (accepting : ∀ attempt, peer.accepts attempt = true)
    (commands : List Command) (trace : Trace Command Reply) :
    sendAll peer commands trace = (true, trace ++ commands.map .sent) := by
  induction commands generalizing trace with
  | nil => simp [sendAll]
  | cons command rest induction =>
      rw [sendAll, if_pos (accepting _), induction]
      simp

/-- What is sent, and whether the end is reached, depends on the number of answered turns
alone. -/
theorem converse_accepting (accepting : ∀ attempt, peer.accepts attempt = true)
    (turns : List (Turn Command Reply)) (trace : Trace Command Reply) :
    (converse peer turns trace).2.sent = trace.sent ++
        commands (turns.take (answeredTurns turns peer.replies trace.received.length + 1)) ∧
      ((converse peer turns trace).1 = true ↔
        answeredTurns turns peer.replies trace.received.length = turns.length) := by
  induction turns generalizing trace with
  | nil => simp [converse, commands, answeredTurns]
  | cons turn rest induction =>
      have sent : Trace.received (trace ++ turn.sends.map .sent : Trace Command Reply) =
          trace.received := by
        rw [Trace.received_append, Trace.received_map, List.append_nil]
      simp only [converse, takeTurn, sendAll_accepting accepting, if_true, sent, answeredTurns]
      by_cases expected : turn.expects (peer.replies trace.received.length) = true
      · rcases induction (trace ++ turn.sends.map .sent ++
          [.received (peer.replies trace.received.length)]) with ⟨commands_eq, ended⟩
        have count : Trace.received (trace ++ turn.sends.map .sent ++
            [.received (peer.replies trace.received.length)] : Trace Command Reply) =
            trace.received ++ [peer.replies trace.received.length] := by
          rw [Trace.received_append, sent]
          rfl
        rw [count, List.length_append, List.length_singleton] at commands_eq ended
        rw [if_pos expected, if_pos expected]
        constructor
        · rw [commands_eq, Trace.sent_append, Trace.sent_append, Trace.sent_map]
          simp [Trace.sent, commands]
        · rw [ended]
          simp
      · rw [if_neg expected, if_neg expected]
        constructor
        · rw [Trace.sent_append, Trace.sent_append, Trace.sent_map]
          simp [Trace.sent, commands]
        · simp

theorem length_commands_take_lt {turns : List (Turn Command Reply)}
    (talking : ∀ turn ∈ turns.tail, turn.sends ≠ []) {less more : Nat} (ordered : less < more)
    (within : more < turns.length) :
    (commands (turns.take (less + 1))).length < (commands (turns.take (more + 1))).length := by
  have inside : less + 1 < turns.length := by omega
  have next : turns.take (more + 1) = turns.take (less + 1) ++
      (turns[less + 1] :: turns.drop (less + 1 + 1)).take (more - less) := by
    rw [← List.drop_eq_getElem_cons inside, ← List.take_add]
    congr 1
    omega
  have member : turns[less + 1] ∈ turns.tail := by
    rw [← List.getElem_tail (by simp; omega)]
    exact List.getElem_mem _
  have some_command := List.length_pos_iff.mpr (talking _ member)
  rw [next]
  obtain ⟨rest, rest_eq⟩ : ∃ rest, more - less = rest + 1 := ⟨more - less - 1, by omega⟩
  rw [rest_eq, List.take_succ_cons]
  simp only [commands, List.flatMap_append, List.flatMap_cons, List.length_append]
  omega

/-- Two dialogues of turns that each say something come to the same end with the same commands
exactly if the same first turns are answered. -/
theorem converse_agree_iff {left right : Peer Reply}
    (leftAccepting : ∀ attempt, left.accepts attempt = true)
    (rightAccepting : ∀ attempt, right.accepts attempt = true)
    {turns : List (Turn Command Reply)} (talking : ∀ turn ∈ turns.tail, turn.sends ≠ []) :
    ((converse left turns []).1 = (converse right turns []).1 ∧
        (converse left turns []).2.sent = (converse right turns []).2.sent) ↔
      ∀ count, count ≤ turns.length →
        (Expected turns left.replies 0 count ↔ Expected turns right.replies 0 count) := by
  rcases converse_accepting leftAccepting turns [] with ⟨leftSent, leftEnd⟩
  rcases converse_accepting rightAccepting turns [] with ⟨rightSent, rightEnd⟩
  simp only [Trace.sent, Trace.received, List.length_nil, List.nil_append] at *
  have leftLe := answeredTurns_le turns left.replies 0
  have rightLe := answeredTurns_le turns right.replies 0
  have same_iff : (answeredTurns turns left.replies 0 = answeredTurns turns right.replies 0) ↔
      ∀ count, count ≤ turns.length →
        (Expected turns left.replies 0 count ↔ Expected turns right.replies 0 count) := by
    constructor
    · intro same count within
      rw [← le_answeredTurns_iff within, ← le_answeredTurns_iff within, same]
    · intro agree
      apply Nat.le_antisymm
      · exact (le_answeredTurns_iff leftLe _ _).mpr
          ((agree _ leftLe).mp ((le_answeredTurns_iff leftLe _ _).mp (Nat.le_refl _)))
      · exact (le_answeredTurns_iff rightLe _ _).mpr
          ((agree _ rightLe).mpr ((le_answeredTurns_iff rightLe _ _).mp (Nat.le_refl _)))
  rw [← same_iff]
  constructor
  · rintro ⟨results, sents⟩
    have ends : answeredTurns turns left.replies 0 = turns.length ↔
        answeredTurns turns right.replies 0 = turns.length := by
      rw [← leftEnd, ← rightEnd, results]
    rw [leftSent, rightSent] at sents
    rcases Nat.lt_trichotomy (answeredTurns turns left.replies 0)
      (answeredTurns turns right.replies 0) with less | same | more
    · have longer := length_commands_take_lt talking less (by omega)
      rw [sents] at longer
      exact absurd longer (Nat.lt_irrefl _)
    · exact same
    · have longer := length_commands_take_lt talking more (by omega)
      rw [sents] at longer
      exact absurd longer (Nat.lt_irrefl _)
  · intro same
    constructor
    · rw [Bool.eq_iff_iff, leftEnd, rightEnd, same]
    · rw [leftSent, rightSent, same]

end MyBookSources.LockStep
