/-! # Labelled machines and their runs

A machine moves between states under labels. A run is a list of labels with the
states it leads through; invariants of a machine hold along its runs, and a
machine can be restricted to the steps that meet a condition.
-/

namespace MyBookSources

structure Machine (State : Type u) (Label : Type v) where
  Step : State → Label → State → Prop

namespace Machine

def ofFunction (step : State → Label → State) : Machine State Label where
  Step before label after := after = step before label

def ofPartial (step : State → Label → Option State) : Machine State Label where
  Step before label after := step before label = some after

def runPartial (step : State → Label → Option State) : State → List Label → Option State
  | state, [] => some state
  | state, label :: labels => (step state label).bind (runPartial step · labels)

/-- The machine that takes only steps meeting `condition`, which sees the state
before the step and the label. -/
def restrict (machine : Machine State Label) (condition : State → Label → Prop) :
    Machine State Label where
  Step before label after := machine.Step before label after ∧ condition before label

inductive Transitions (machine : Machine State Label) : State → List Label → State → Prop
  | nil (state) : Transitions machine state [] state
  | snoc {first middle last labels label} :
      Transitions machine first labels middle →
      machine.Step middle label last →
      Transitions machine first (labels ++ [label]) last

def Reaches (machine : Machine State Label) (first last : State) : Prop :=
  ∃ labels, machine.Transitions first labels last

/-- What one step preserves, a whole run preserves. -/
theorem Transitions.invariant {machine : Machine State Label} {holds : State → Prop}
    (transitions : machine.Transitions first labels last)
    (preserved : ∀ before label after, holds before →
      machine.Step before label after → holds after)
    (initial : holds first) : holds last := by
  induction transitions with
  | nil => exact initial
  | snoc _ step induction => exact preserved _ _ _ induction step

theorem Transitions.trans {machine : Machine State Label}
    (left : machine.Transitions first leftLabels middle)
    (right : machine.Transitions middle rightLabels last) :
    machine.Transitions first (leftLabels ++ rightLabels) last := by
  induction right with
  | nil => simpa using left
  | snoc _ step induction =>
      rw [← List.append_assoc]
      exact .snoc induction step

/-- An invariant whose steps may use another invariant on both sides. -/
theorem Transitions.invariant_of_invariant {machine : Machine State Label}
    {known holds : State → Prop} (transitions : machine.Transitions first labels last)
    (knownPreserved : ∀ before label after, known before →
      machine.Step before label after → known after)
    (preserved : ∀ before label after, known before → known after → holds before →
      machine.Step before label after → holds after)
    (knownInitial : known first) (initial : holds first) : holds last := by
  induction transitions with
  | nil => exact initial
  | snoc earlier step induction =>
      have before := earlier.invariant knownPreserved knownInitial
      exact preserved _ _ _ before (knownPreserved _ _ _ before step)
        induction step

theorem Transitions.of_restrict {machine : Machine State Label}
    {condition : State → Label → Prop}
    (transitions : (machine.restrict condition).Transitions first labels last) :
    machine.Transitions first labels last := by
  induction transitions with
  | nil => exact .nil _
  | snoc _ step induction => exact .snoc induction step.1

theorem Transitions.cons {machine : Machine State Label}
    (step : machine.Step first label middle)
    (rest : machine.Transitions middle labels last) :
    machine.Transitions first (label :: labels) last :=
  (Transitions.snoc (.nil first) step).trans rest

theorem transitions_of_runPartial {step : State → Label → Option State}
    (run : runPartial step first labels = some last) :
    (ofPartial step).Transitions first labels last := by
  induction labels generalizing first with
  | nil =>
      cases run
      exact .nil _
  | cons label labels induction =>
      rcases Option.bind_eq_some_iff.mp run with ⟨middle, taken, rest⟩
      exact .cons taken (induction rest)

/-- A run that checks `condition` before each step is a run of the restricted machine. -/
theorem transitions_of_checked_run {step : State → Label → Option State}
    {condition : State → Label → Prop} [∀ state label, Decidable (condition state label)]
    (run : runPartial (fun state label => if condition state label then step state label
      else none) first labels = some last) :
    ((ofPartial step).restrict condition).Transitions first labels last := by
  induction labels generalizing first with
  | nil =>
      cases run
      exact .nil _
  | cons label labels induction =>
      rcases Option.bind_eq_some_iff.mp run with ⟨middle, taken, rest⟩
      dsimp only at taken
      split at taken
      · next holds => exact .cons ⟨taken, holds⟩ (induction rest)
      · cases taken

/-- A run meets the condition in each step, unless a step that does not meet it has led to
states that `fails` keeps. -/
theorem Transitions.restrict_or {machine : Machine State Label}
    {condition : State → Label → Prop} {known fails : State → Prop}
    (transitions : machine.Transitions first labels last)
    (knownPreserved : ∀ before label after, known before →
      machine.Step before label after → known after)
    (fail : ∀ before label after, known before → machine.Step before label after →
      ¬ condition before label → fails after)
    (stays : ∀ before label after, known before → fails before →
      machine.Step before label after → fails after)
    (knownInitial : known first) :
    (machine.restrict condition).Transitions first labels last ∨ fails last := by
  induction transitions with
  | nil => exact .inl (.nil _)
  | @snoc middle last labels label earlier step induction =>
      have before := earlier.invariant knownPreserved knownInitial
      cases induction with
      | inr failed => exact .inr (stays _ _ _ before failed step)
      | inl checked =>
          by_cases holds : condition middle label
          · exact .inl (.snoc checked ⟨step, holds⟩)
          · exact .inr (fail _ _ _ before step holds)

/-! ## Runs of partial step functions -/

/-- The run is defined all along and `holds` of each of its states. -/
def RunHolds (step : State → Label → Option State) (holds : State → Prop) :
    State → List Label → Prop
  | state, [] => holds state
  | state, label :: labels =>
      holds state ∧ ∃ next, step state label = some next ∧ RunHolds step holds next labels

/-- Each step of the run meets the condition in the state before it. -/
def RunPermits (step : State → Label → Option State) (permits : State → Label → Prop) :
    State → List Label → Prop
  | _, [] => True
  | state, label :: labels =>
      permits state label ∧
        ∀ next, step state label = some next → RunPermits step permits next labels

theorem last_of_runHolds {step : State → Label → Option State} {holds : State → Prop}
    {state last : State} {labels : List Label} (along : RunHolds step holds state labels)
    (run : runPartial step state labels = some last) : holds last := by
  induction labels generalizing state with
  | nil =>
      cases run
      exact along
  | cons label labels induction =>
      rcases along with ⟨_, next, taken, later⟩
      rw [runPartial, taken] at run
      exact induction later run

theorem runPermits_iff_forall {step : State → Label → Option State} {permits : Label → Prop}
    {state last : State} {labels : List Label}
    (run : runPartial step state labels = some last) :
    RunPermits step (fun _ => permits) state labels ↔ ∀ label ∈ labels, permits label := by
  induction labels generalizing state with
  | nil => exact ⟨fun _ _ member => absurd member List.not_mem_nil, fun _ => trivial⟩
  | cons label labels induction =>
      rcases Option.bind_eq_some_iff.mp run with ⟨next, taken, rest⟩
      rw [RunPermits, List.forall_mem_cons, ← induction rest]
      constructor
      · intro along
        exact ⟨along.1, along.2 next taken⟩
      · intro along
        refine ⟨along.1, ?_⟩
        intro other takenOther
        rw [taken] at takenOther
        cases takenOther
        exact along.2

theorem runPermits_of_checked_run {step : State → Label → Option State}
    {permits : State → Label → Prop} [∀ state label, Decidable (permits state label)]
    {state : State} {labels : List Label}
    (run : (runPartial (fun state label => if permits state label then step state label
      else none) state labels).isSome = true) :
    (runPartial step state labels).isSome = true ∧ RunPermits step permits state labels := by
  induction labels generalizing state with
  | nil => exact ⟨rfl, trivial⟩
  | cons label labels induction =>
      simp only [runPartial] at run ⊢
      split at run
      · next holds =>
        cases taken : step state label with
        | none =>
            rw [taken] at run
            cases run
        | some next =>
            rw [taken] at run
            rcases induction run with ⟨defined, permitted⟩
            refine ⟨defined, holds, ?_⟩
            intro other takenOther
            rw [taken] at takenOther
            cases takenOther
            exact permitted
      · cases run

/-- A condition that the permitted steps meet under an invariant that they keep is met all
along the run. -/
theorem RunPermits.imp {step : State → Label → Option State} {invariant : State → Prop}
    {permits required : State → Label → Prop}
    (implied : ∀ state label, invariant state → permits state label → required state label)
    (kept : ∀ state label next, invariant state → permits state label →
      step state label = some next → invariant next)
    {state : State} (initial : invariant state) {labels : List Label}
    (along : RunPermits step permits state labels) : RunPermits step required state labels := by
  induction labels generalizing state with
  | nil => trivial
  | cons label labels induction =>
      constructor
      · exact implied state label initial along.1
      · intro next taken
        exact induction (kept state label next initial along.1 taken) (along.2 next taken)

theorem RunPermits.behind {step : State → Label → Option State} {permits : State → Label → Prop}
    {state middle : State} {front later : List Label}
    (run : runPartial step state front = some middle)
    (along : RunPermits step permits state (front ++ later)) :
    RunPermits step permits middle later := by
  induction front generalizing state with
  | nil =>
      cases run
      exact along
  | cons label front induction =>
      rcases Option.bind_eq_some_iff.mp run with ⟨next, taken, rest⟩
      exact induction rest (along.2 next taken)

theorem runPermits_congr {step : State → Label → Option State} {invariant : State → Prop}
    {left right : State → Label → Prop}
    (same : ∀ state label, invariant state → (left state label ↔ right state label))
    (kept : ∀ state label next, invariant state → right state label →
      step state label = some next → invariant next)
    {state : State} (initial : invariant state) (labels : List Label) :
    RunPermits step left state labels ↔ RunPermits step right state labels := by
  constructor
  · exact RunPermits.imp (fun state label known => (same state label known).mp)
      (fun state label next known permitted => kept state label next known
        ((same state label known).mp permitted)) initial
  · exact RunPermits.imp (fun state label known => (same state label known).mpr) kept initial

/-- If the permitted steps are exactly those that keep `holds`, given an invariant, then
the runs of permitted steps are exactly those along which it holds. -/
theorem runHolds_iff_runPermits {step : State → Label → Option State}
    {invariant holds : State → Prop} {permits : State → Label → Prop}
    (holds_of : ∀ state, invariant state → holds state)
    (kept : ∀ state label, invariant state → permits state label →
      ∃ next, step state label = some next ∧ invariant next)
    (necessary : ∀ state label next, invariant state → step state label = some next →
      holds next → permits state label)
    {state : State} (initial : invariant state) (labels : List Label) :
    RunHolds step holds state labels ↔ RunPermits step permits state labels := by
  induction labels generalizing state with
  | nil =>
      constructor
      · intro _
        exact trivial
      · intro _
        exact holds_of state initial
  | cons label labels induction =>
      constructor
      · intro run
        rcases run with ⟨_, next, taken, rest⟩
        have after : holds next := by
          cases labels with
          | nil => exact rest
          | cons _ _ => exact rest.1
        have permitted := necessary state label next initial taken after
        rcases kept state label initial permitted with ⟨same, takenAgain, nextInvariant⟩
        rw [taken] at takenAgain
        cases takenAgain
        constructor
        · exact permitted
        · intro other takenOther
          rw [taken] at takenOther
          cases takenOther
          exact (induction nextInvariant).mp rest
      · intro run
        rcases kept state label initial run.1 with ⟨next, taken, nextInvariant⟩
        constructor
        · exact holds_of state initial
        · exact ⟨next, taken, (induction nextInvariant).mpr (run.2 next taken)⟩

theorem runHolds_iff_of_run {step : State → Label → Option State}
    {invariant holds : State → Prop} {permits : State → Label → Prop}
    (kept : ∀ state label next, invariant state → step state label = some next →
      permits state label → invariant next ∧ holds next)
    (necessary : ∀ state label next, invariant state → step state label = some next →
      holds next → permits state label)
    {state last : State} {labels : List Label} (initial : invariant state)
    (start : holds state) (run : runPartial step state labels = some last) :
    RunHolds step holds state labels ↔ RunPermits step permits state labels := by
  induction labels generalizing state with
  | nil =>
      constructor
      · intro _
        exact trivial
      · intro _
        exact start
  | cons label labels induction =>
      rcases Option.bind_eq_some_iff.mp run with ⟨next, taken, rest⟩
      constructor
      · intro along
        rcases along with ⟨_, same, takenAgain, later⟩
        rw [taken] at takenAgain
        cases takenAgain
        have after : holds next := by
          cases labels with
          | nil => exact later
          | cons _ _ => exact later.1
        have permitted := necessary state label next initial taken after
        have nextInvariant := (kept state label next initial taken permitted).1
        constructor
        · exact permitted
        · intro other takenOther
          rw [taken] at takenOther
          cases takenOther
          exact (induction nextInvariant after rest).mp later
      · intro along
        have after := kept state label next initial taken along.1
        constructor
        · exact start
        · exact ⟨next, taken, (induction after.1 after.2 rest).mpr (along.2 next taken)⟩

/-! ## Step functions with outputs -/

def runOutputs (step : State → Label → State × Output) :
    State → List Label → State × List Output
  | state, [] => (state, [])
  | state, label :: labels =>
      let next := step state label
      let rest := runOutputs step next.1 labels
      (rest.1, next.2 :: rest.2)

theorem runOutputs_append (step : State → Label → State × Output) (state : State)
    (left right : List Label) :
    runOutputs step state (left ++ right) =
      ((runOutputs step (runOutputs step state left).1 right).1,
        (runOutputs step state left).2 ++
          (runOutputs step (runOutputs step state left).1 right).2) := by
  induction left generalizing state with
  | nil => rfl
  | cons label left induction =>
      simp only [List.cons_append, runOutputs]
      rw [induction]

/-- Two step functions that answer alike and keep a relation, under the labels that may come, do
so for whole runs. -/
theorem runOutputs_related_of {leftStep : Left → Label → Left × Output}
    {rightStep : Right → Label → Right × Output} {related : Left → Right → Prop}
    {may : Label → Prop}
    (each : ∀ left right label, may label → related left right →
      (leftStep left label).2 = (rightStep right label).2 ∧
        related (leftStep left label).1 (rightStep right label).1)
    {left : Left} {right : Right} (initial : related left right) {labels : List Label}
    (all : ∀ label ∈ labels, may label) :
    (runOutputs leftStep left labels).2 = (runOutputs rightStep right labels).2 ∧
      related (runOutputs leftStep left labels).1 (runOutputs rightStep right labels).1 := by
  induction labels generalizing left right with
  | nil => exact ⟨rfl, initial⟩
  | cons label labels induction =>
      rcases List.forall_mem_cons.mp all with ⟨first, later⟩
      rcases each left right label first initial with ⟨answer, next⟩
      rcases induction next later with ⟨answers, last⟩
      constructor
      · simp only [runOutputs]
        rw [answer, answers]
      · exact last

theorem runOutputs_related {leftStep : Left → Label → Left × Output}
    {rightStep : Right → Label → Right × Output} {related : Left → Right → Prop}
    (each : ∀ left right label, related left right →
      (leftStep left label).2 = (rightStep right label).2 ∧
        related (leftStep left label).1 (rightStep right label).1)
    {left : Left} {right : Right} (initial : related left right) (labels : List Label) :
    (runOutputs leftStep left labels).2 = (runOutputs rightStep right labels).2 ∧
      related (runOutputs leftStep left labels).1 (runOutputs rightStep right labels).1 :=
  runOutputs_related_of (fun left right label (_ : True) => each left right label) initial
    fun _ _ => trivial

namespace Reaches

theorem refl (machine : Machine State Label) (state : State) : machine.Reaches state state :=
  ⟨[], .nil state⟩

theorem of_step {machine : Machine State Label} (step : machine.Step first label last) :
    machine.Reaches first last :=
  ⟨[label], .snoc (.nil first) step⟩

theorem snoc {machine : Machine State Label} (reaches : machine.Reaches first middle)
    (step : machine.Step middle label last) : machine.Reaches first last := by
  rcases reaches with ⟨labels, transitions⟩
  exact ⟨labels ++ [label], .snoc transitions step⟩

theorem trans {machine : Machine State Label} (left : machine.Reaches first middle)
    (right : machine.Reaches middle last) : machine.Reaches first last := by
  rcases left with ⟨_, leftTransitions⟩
  rcases right with ⟨_, rightTransitions⟩
  exact ⟨_, leftTransitions.trans rightTransitions⟩

theorem invariant {machine : Machine State Label} {holds : State → Prop}
    (reaches : machine.Reaches first last)
    (preserved : ∀ before label after, holds before →
      machine.Step before label after → holds after)
    (initial : holds first) : holds last := by
  rcases reaches with ⟨_, transitions⟩
  exact transitions.invariant preserved initial

end Reaches

end Machine

end MyBookSources
