import MyBookSources.Foundation.Execution
import Mathlib.Order.Lattice
import Mathlib.Tactic.ByContra

/-! # Endless runs and fairness

A run without end is fair to an actor if the actor acts again and again, provided that again
and again one of its steps can be taken.
-/

namespace MyBookSources.Machine

variable {State : Type u} {Label : Type v} {machine : Machine State Label} {first : State}

structure EndlessRun (machine : Machine State Label) (first : State) where
  states : Nat → State
  labels : Nat → Label
  start : states 0 = first
  steps : ∀ time, machine.Step (states time) (labels time) (states (time + 1))

/-- The actor, whose steps have the labels in `acts`, can take a step. -/
def Enabled (machine : Machine State Label) (acts : Label → Prop) (state : State) : Prop :=
  ∃ label next, acts label ∧ machine.Step state label next

namespace EndlessRun

variable (run : EndlessRun machine first)

def Fair (acts : Label → Prop) : Prop :=
  (∀ time, ∃ later, time ≤ later ∧ machine.Enabled acts (run.states later)) →
    ∀ time, ∃ later, time ≤ later ∧ acts (run.labels later)

variable {run}

theorem transitions (time : Nat) :
    machine.Transitions first ((List.range time).map run.labels) (run.states time) := by
  induction time with
  | zero =>
      rw [run.start]
      exact .nil first
  | succ time induction =>
      rw [List.range_succ, List.map_append, List.map_singleton]
      exact .snoc induction (run.steps time)

theorem preserved (holds : State → Prop) {time : Nat}
    (step : ∀ later, time ≤ later → holds (run.states later) → holds (run.states (later + 1)))
    (now : holds (run.states time)) {later : Nat} (after : time ≤ later) :
    holds (run.states later) := by
  induction after with
  | refl => exact now
  | step after induction => exact step _ after induction

/-- An actor whose steps alone end `holds`, and which again and again can take a step while
`holds`, acts. -/
theorem Fair.acts {acts : Label → Prop} (fair : run.Fair acts) (holds : State → Prop)
    {time : Nat} (stays : ∀ later, time ≤ later → holds (run.states later) →
      ¬ acts (run.labels later) → holds (run.states (later + 1)))
    (often : ∀ later, time ≤ later → (∀ between, time ≤ between → holds (run.states between)) →
      ∃ enabled, later ≤ enabled ∧ machine.Enabled acts (run.states enabled))
    (now : holds (run.states time)) :
    ∃ later, time ≤ later ∧ acts (run.labels later) ∧ holds (run.states later) := by
  by_contra never
  have holdsLater : ∀ later, time ≤ later → holds (run.states later) := by
    intro later after
    exact preserved holds (fun between behind holding =>
      stays between behind holding fun acting => never ⟨between, behind, acting, holding⟩) now after
  have enabledOften : ∀ since, ∃ later, since ≤ later ∧
      machine.Enabled acts (run.states later) := by
    intro since
    rcases often (max since time) (le_max_right _ _) holdsLater with ⟨enabled, after, can⟩
    exact ⟨enabled, (le_max_left _ _).trans after, can⟩
  rcases fair enabledOften time with ⟨later, after, acting⟩
  exact never ⟨later, after, acting, holdsLater later after⟩

def cons {label : Label} {next : State} (step : machine.Step first label next)
    (run : EndlessRun machine next) : EndlessRun machine first where
  states time := time.casesOn first run.states
  labels time := time.casesOn label run.labels
  start := rfl
  steps time := by
    cases time with
    | zero =>
        change machine.Step first label (run.states 0)
        rw [run.start]
        exact step
    | succ time => exact run.steps time

theorem Fair.cons {acts : Label → Prop} {label : Label} {next : State}
    {run : EndlessRun machine next} (fair : run.Fair acts)
    (step : machine.Step first label next) : (run.cons step).Fair acts := by
  intro often time
  have oftenThen : ∀ time, ∃ later, time ≤ later ∧ machine.Enabled acts (run.states later) := by
    intro time
    rcases often (time + 1) with ⟨later, after, enabled⟩
    cases later with
    | zero => exact absurd after (by omega)
    | succ later => exact ⟨later, by omega, enabled⟩
  rcases fair oftenThen time with ⟨later, after, acting⟩
  exact ⟨later + 1, by omega, acting⟩

end EndlessRun

end MyBookSources.Machine
