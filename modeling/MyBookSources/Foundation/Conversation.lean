import MyBookSources.Foundation.Execution
import MyBookSources.Foundation.LockStep
import MyBookSources.Foundation.Polling

/-! # Conversations in lock step

A client polls for the reply to a command until it is complete, and only then sends the next one.
Its conversations are the runs of a machine that knows how far the last reply has come.
-/

namespace MyBookSources

namespace Machine

variable {machine : Machine State Label} {first last : State}

theorem Transitions.eq_of_nil {labels : List Label}
    (transitions : machine.Transitions first labels last) (none : labels = []) :
    first = last := by
  cases transitions with
  | nil => rfl
  | snoc earlier step => simp at none

theorem Transitions.split {left right : List Label}
    (transitions : machine.Transitions first (left ++ right) last) :
    ∃ middle, machine.Transitions first left middle ∧
      machine.Transitions middle right last := by
  generalize whole : left ++ right = labels at transitions
  induction transitions generalizing right with
  | nil =>
      rcases List.append_eq_nil_iff.mp whole with ⟨rfl, rfl⟩
      exact ⟨_, .nil _, .nil _⟩
  | snoc earlier step induction =>
      rcases List.eq_nil_or_concat right with rfl | ⟨front, label, rfl⟩
      · rw [List.append_nil] at whole
        subst whole
        exact ⟨_, .snoc earlier step, .nil _⟩
      · rw [List.concat_eq_append, ← List.append_assoc] at whole
        rcases List.append_inj' whole rfl with ⟨same, last⟩
        cases last
        rcases induction same with ⟨middle, before, behind⟩
        rw [List.concat_eq_append]
        exact ⟨middle, before, .snoc behind step⟩

theorem Transitions.head {label : Label} {labels : List Label}
    (transitions : machine.Transitions first (label :: labels) last) :
    ∃ middle, machine.Step first label middle ∧ machine.Transitions middle labels last := by
  rw [← List.singleton_append] at transitions
  rcases transitions.split with ⟨middle, one, rest⟩
  generalize single : [label] = labels at one
  cases one with
  | nil => cases single
  | snoc earlier step =>
      rw [← List.nil_append [label]] at single
      rcases List.append_inj' single rfl with ⟨none, same⟩
      cases same
      rw [earlier.eq_of_nil none.symm]
      exact ⟨middle, step, rest⟩

end Machine

namespace LockStep

open Polling (Poll)

variable {Command : Type u} {α : Type v}

def Trace.heard (trace : Trace Command (Poll α)) : List α := trace.received.flatMap Poll.items

theorem Trace.heard_append (left right : Trace Command (Poll α)) :
    Trace.heard (left ++ right) = left.heard ++ right.heard := by
  rw [Trace.heard, Trace.received_append, List.flatMap_append]
  rfl

/-- Where a conversation stands. The peer may speak before the first command. -/
inductive Phase (Command : Type u) (α : Type v)
  | greeting (heard : List α)
  | asked (command : Command) (heard : List α)
  | refused
  | broken

namespace Phase

def hear : Phase Command α → Poll α → Phase Command α
  | _, .error => broken
  | greeting heard, poll => greeting (heard ++ poll.items)
  | asked command heard, poll => asked command (heard ++ poll.items)
  | refused, _ => refused
  | broken, _ => broken

def next (phase : Phase Command α) : Event Command (Poll α) → Phase Command α
  | .sent command => asked command []
  | .failed _ => refused
  | .received poll => phase.hear poll

variable (complete : Command → List α → Prop)

/-- The client may send. -/
def Free : Phase Command α → Prop
  | greeting _ => True
  | asked command heard => complete command heard
  | refused => True
  | broken => False

/-- The client may poll. -/
def Waits : Phase Command α → Prop
  | greeting _ => True
  | asked command heard => ¬ complete command heard
  | refused => False
  | broken => False

def Polite (phase : Phase Command α) : Event Command (Poll α) → Prop
  | .sent _ => phase.Free complete
  | .failed _ => phase.Free complete
  | .received _ => phase.Waits complete

end Phase

def conversation (complete : Command → List α → Prop) :
    Machine (Phase Command α) (Event Command (Poll α)) where
  Step phase event next := phase.Polite complete event ∧ next = phase.next event

variable {complete : Command → List α → Prop} {phase : Phase Command α}
  {trace : Trace Command (Poll α)}

/-! ## What a trace shows -/

/-- Where a conversation stands when so much has come since the last command went out. -/
def Since (complete : Command → List α → Prop) (command : Command) (heard : List α)
    (phase : Phase Command α) : Prop :=
  phase = .asked command heard ∨ phase = .refused ∧ complete command heard ∨ phase = .broken

theorem Since.step {command : Command} {heard : List α} (since : Since complete command heard phase)
    {event : Event Command (Poll α)} (polite : phase.Polite complete event)
    (silent : Trace.sent [event] = []) :
    Since complete command (heard ++ Trace.heard [event]) (phase.next event) := by
  cases event with
  | sent next => cases silent
  | failed next =>
      have none : Trace.heard [Event.failed next] = ([] : List α) := rfl
      rw [none, List.append_nil]
      rcases since with rfl | ⟨rfl, answered⟩ | rfl
      · exact .inr (.inl ⟨rfl, polite⟩)
      · exact .inr (.inl ⟨rfl, answered⟩)
      · cases polite
  | received poll =>
      rcases since with rfl | ⟨rfl, answered⟩ | rfl
      · cases poll with
        | error => exact .inr (.inr rfl)
        | quiet => exact .inl rfl
        | data items =>
            left
            simp [Phase.next, Phase.hear, Trace.heard, Trace.received]
      · cases polite
      · cases polite

theorem since_of_transitions {command : Command} {since : Trace Command (Poll α)}
    (transitions : (conversation complete).Transitions (.asked command []) since phase)
    (silent : since.sent = []) : Since complete command since.heard phase := by
  induction transitions with
  | nil => exact .inl rfl
  | snoc earlier step induction =>
      rw [Trace.sent_append] at silent
      rcases List.append_eq_nil_iff.mp silent with ⟨none, quiet⟩
      rcases step with ⟨polite, rfl⟩
      rw [Trace.heard_append]
      exact (induction none).step polite quiet

theorem asked_of_transitions {command : Command} {since : Trace Command (Poll α)}
    (transitions : (conversation complete).Transitions (.asked command []) since phase)
    (silent : since.handed = []) : phase = .asked command since.heard ∨ phase = .broken := by
  induction transitions with
  | nil => exact .inl rfl
  | @snoc _ _ labels event earlier step induction =>
      rw [Trace.handed_append] at silent
      rcases List.append_eq_nil_iff.mp silent with ⟨none, quiet⟩
      rcases step with ⟨polite, rfl⟩
      cases event with
      | sent next => cases quiet
      | failed next => cases quiet
      | received poll =>
          rw [Trace.heard_append]
          rcases induction none with rfl | rfl
          · cases poll with
            | error => exact .inr rfl
            | quiet => exact .inl rfl
            | data items =>
                left
                simp [Phase.next, Phase.hear, Trace.heard, Trace.received]
          · cases polite

variable (transitions : (conversation complete).Transitions (.greeting []) trace phase)

include transitions

theorem transitions_behind_sent {earlier since : Trace Command (Poll α)} {command : Command}
    (cut : trace = earlier ++ .sent command :: since) :
    (conversation complete).Transitions (.asked command []) since phase := by
  rw [cut] at transitions
  rcases transitions.split with ⟨before, _, behind⟩
  rcases behind.head with ⟨middle, ⟨_, rfl⟩, rest⟩
  exact rest

theorem step_behind_sent {earlier between later : Trace Command (Poll α)} {command : Command}
    {event : Event Command (Poll α)}
    (cut : trace = earlier ++ .sent command :: (between ++ event :: later))
    (silent : between.sent = []) :
    ∃ before : Phase Command α, Since complete command between.heard before ∧
      before.Polite complete event := by
  rcases (transitions_behind_sent transitions cut).split with ⟨before, first, rest⟩
  rcases rest.head with ⟨middle, ⟨polite, _⟩, _⟩
  exact ⟨before, since_of_transitions first silent, polite⟩

/-- A command only goes out when the reply to the one before it is complete. -/
theorem answered_before_next {earlier between later : Trace Command (Poll α)}
    {command next : Command}
    (cut : trace = earlier ++ .sent command :: (between ++ .sent next :: later))
    (silent : between.sent = []) : complete command between.heard := by
  rcases step_behind_sent transitions cut silent with ⟨before, since, free⟩
  rcases since with rfl | ⟨rfl, answered⟩ | rfl
  · exact free
  · exact answered
  · cases free

theorem incomplete_before_poll {earlier between later : Trace Command (Poll α)}
    {command : Command} {poll : Poll α}
    (cut : trace = earlier ++ .sent command :: (between ++ .received poll :: later))
    (silent : between.sent = []) : ¬ complete command between.heard := by
  rcases step_behind_sent transitions cut silent with ⟨before, since, waits⟩
  rcases since with rfl | ⟨rfl, answered⟩ | rfl
  · exact waits
  · cases waits
  · cases waits

theorem nothing_behind_error {earlier later : Trace Command (Poll α)}
    (cut : trace = earlier ++ .received .error :: later) : later = [] := by
  rw [cut] at transitions
  rcases transitions.split with ⟨before, _, behind⟩
  rcases behind.head with ⟨middle, ⟨_, rfl⟩, rest⟩
  have broken : before.next (.received .error) = .broken := by
    cases before <;> rfl
  rw [broken] at rest
  cases later with
  | nil => rfl
  | cons event later =>
      rcases rest.head with ⟨_, ⟨polite, _⟩, _⟩
      cases event with
      | sent command => cases polite
      | failed command => cases polite
      | received poll => cases polite

end LockStep

end MyBookSources
