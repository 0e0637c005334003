import MyBookSources.Foundation.Bytes
import MyBookSources.Foundation.Execution
import Mathlib.Algebra.Order.Group.Multiset
import Mathlib.Data.List.GetD
import Mathlib.Tactic.Abel

/-! # The time wheel

The third version of the timers keeps them in a wheel of slots. What it is for is a
multiset of timers: `addTimer` adds one, `removeTimer` takes one out and tells whether it
was there.
-/

namespace MyBookSources.TimerV3

/-- `number` tells the timers apart, as their pointers do: it counts the timers that had
been created with this one. -/
structure Timer where
  number : Nat
  repeatedTimes : Int
  interval : Int
  expiredTime : Int
  deriving DecidableEq

/-- The identifiers are taken from an `int`. -/
def Timer.getId (timer : Timer) : Int := int32 timer.number

/-- The slots, with `none` for a slot whose list has not been made. -/
abbrev TimeWheel := List (Option (List Timer))

structure TimerManager where
  timeWheel : TimeWheel
  slotInterval : Int
  created : Nat
  deriving DecidableEq

namespace TimeWheel

def slot (wheel : TimeWheel) (index : Nat) : List Timer := (wheel.getD index none).getD []

def timers (wheel : TimeWheel) : List Timer := wheel.flatMap fun slot => slot.getD []

/-- `std::vector::resize` to a larger size. -/
def resize (wheel : TimeWheel) (size : Nat) : TimeWheel :=
  wheel ++ List.replicate (size - wheel.length) none

/-- The three cases of `addTimer` for a slot index that is not negative. There is no result
where a size does not fit into an `int`. -/
def place (wheel : TimeWheel) (slotIndex : Nat) (timer : Timer) : Option TimeWheel :=
  if wheel.isEmpty then
    if slotIndex = 0 then some [some [timer]]
    else if slotIndex + 1 < 2 ^ 31 then
      some ((wheel.resize (slotIndex + 1)).set slotIndex (some [timer]))
    else none
  else if slotIndex + 1 < wheel.length then
    some (wheel.set slotIndex (some (wheel.slot slotIndex ++ [timer])))
  else if slotIndex + 1 + 8 < 2 ^ 31 then
    some ((wheel.resize (slotIndex + 1 + 8)).set slotIndex (some [timer]))
  else none

end TimeWheel

namespace TimerManager

def create (slotInterval : Int) : TimerManager := ⟨[], slotInterval, 0⟩

/-- There is no result where the source divides by zero or indexes the wheel with a negative
`slotIndex`. The constructor that `addTimer` calls would also take the base time of the
slot, which the call leaves out and nothing reads. -/
def addTimer (manager : TimerManager) (repeatedCount interval now : Int) :
    Option (Int × TimerManager) :=
  let slotIndex := signed 32 (interval.tmod manager.slotInterval)
  let timer : Timer :=
    ⟨manager.created + 1, repeatedCount, interval, signed 64 (now + interval)⟩
  if manager.slotInterval = 0 ∨ slotIndex < 0 then none
  else do
    let timeWheel ← manager.timeWheel.place slotIndex.toNat timer
    some (timer.getId,
      { manager with timeWheel := timeWheel, created := manager.created + 1 })

/-- `size() < slotIndex + 1` compares as `size_t`, so no wheel has that size below a negative
`slotIndex + 1`. -/
def removeTimer (manager : TimerManager) (timer : Timer) : Option (Bool × TimerManager) :=
  let slotIndex := signed 32 (timer.interval.tdiv manager.slotInterval)
  if manager.slotInterval = 0 ∨ slotIndex = -1 ∨ slotIndex + 1 = 2 ^ 31 then none
  else if slotIndex + 1 < 0 ∨ manager.timeWheel.length < slotIndex + 1 then
    some (false, manager)
  else
    match manager.timeWheel.slot slotIndex.toNat with
    | [] => some (false, manager)
    | _ :: rest =>
        some (true,
          { manager with timeWheel := manager.timeWheel.set slotIndex.toNat (some rest) })

end TimerManager

/-! ## Timers added and not removed -/

/-- What the wheel is for: the timer is taken out if it is there. -/
def takeOut (timer : Timer) (timers : Multiset Timer) : Bool × Multiset Timer :=
  (timer ∈ timers, timers.erase timer)

/-- The manager beside the timers that were added and not removed. `agreed` tells whether
the last call answered as it should. -/
structure WheelHistory where
  manager : TimerManager
  held : Multiset Timer
  agreed : Bool

inductive WheelCall
  | addTimer (repeatedCount interval now : Int)
  | removeTimer (timer : Timer)

namespace WheelHistory

def create (slotInterval : Int) : WheelHistory := ⟨.create slotInterval, 0, true⟩

def step (history : WheelHistory) : WheelCall → Option WheelHistory
  | .addTimer repeatedCount interval now => do
      let added ← history.manager.addTimer repeatedCount interval now
      some
        { manager := added.2
          held := ⟨history.manager.created + 1, repeatedCount, interval,
            signed 64 (now + interval)⟩ ::ₘ history.held
          agreed := true }
  | .removeTimer timer => do
      let removed ← history.manager.removeTimer timer
      let expected := takeOut timer history.held
      some
        { manager := removed.2
          held := expected.2
          agreed := removed.1 == expected.1 }

/-- The wheel holds what was added and not removed, and the last call told the truth. -/
structure InStep (history : WheelHistory) : Prop where
  held : (history.manager.timeWheel.timers : Multiset Timer) = history.held
  agreed : history.agreed = true

end WheelHistory

/-! ## What the operations do to the timers -/

namespace TimeWheel

theorem slot_of_length_le {wheel : TimeWheel} {index : Nat} (outside : wheel.length ≤ index) :
    wheel.slot index = [] := by
  rw [slot, List.getD_eq_default _ _ outside]
  rfl

@[simp] theorem timers_resize (wheel : TimeWheel) (size : Nat) :
    (wheel.resize size).timers = wheel.timers := by
  rw [resize, timers, timers, List.flatMap_append]
  simp

@[simp] theorem slot_resize (wheel : TimeWheel) (size index : Nat) :
    (wheel.resize size).slot index = wheel.slot index := by
  by_cases inside : index < wheel.length
  · rw [slot, resize, List.getD_append _ _ _ _ inside]
    rfl
  · have outside := Nat.le_of_not_lt inside
    rw [slot_of_length_le outside, slot, resize, List.getD_append_right _ _ _ _ outside]
    by_cases added : index - wheel.length < size - wheel.length
    · rw [List.getD_replicate _ added]
      rfl
    · rw [List.getD_eq_default _ _ (by simpa using added)]
      rfl

theorem length_resize {wheel : TimeWheel} {size : Nat} (grows : wheel.length ≤ size) :
    (wheel.resize size).length = size := by
  rw [resize, List.length_append, List.length_replicate]
  omega

theorem timers_set {wheel : TimeWheel} {index : Nat} (inside : index < wheel.length)
    (slots : List Timer) :
    (timers (wheel.set index (some slots)) : Multiset Timer) + wheel.slot index =
      wheel.timers + slots := by
  induction wheel generalizing index with
  | nil => cases inside
  | cons first wheel induction =>
      cases index with
      | zero =>
          have front : slot (first :: wheel) 0 = first.getD [] := rfl
          rw [front]
          simp only [List.set_cons_zero, timers, List.flatMap_cons, Option.getD_some,
            ← Multiset.coe_add]
          abel
      | succ index =>
          have rest := induction (Nat.lt_of_succ_lt_succ inside)
          have behind : slot (first :: wheel) (index + 1) = slot wheel index := rfl
          rw [behind]
          simp only [List.set_cons_succ, timers, List.flatMap_cons, ← Multiset.coe_add] at rest ⊢
          rw [add_assoc, rest, add_assoc]

/-- The sizes that `addTimer` computes fit into an `int`. -/
def Fits (wheel : TimeWheel) (slotIndex : Nat) : Prop :=
  if wheel = [] then slotIndex = 0 ∨ slotIndex + 1 < 2 ^ 31
  else slotIndex + 1 < wheel.length ∨ slotIndex + 1 + 8 < 2 ^ 31

/-- The timers whose list a new timer replaces: those of the last slot. -/
def replaced (wheel : TimeWheel) (slotIndex : Nat) : List Timer :=
  if slotIndex + 1 < wheel.length then [] else wheel.slot slotIndex

theorem place_fits {wheel after : TimeWheel} {slotIndex : Nat} {timer : Timer}
    (placed : wheel.place slotIndex timer = some after) : wheel.Fits slotIndex := by
  rw [place] at placed
  rw [Fits]
  cases wheel with
  | nil =>
      rw [if_pos rfl]
      rw [if_pos (by rfl)] at placed
      by_cases zero : slotIndex = 0
      · exact .inl zero
      · rw [if_neg zero] at placed
        split at placed
        · next small => exact .inr small
        · cases placed
  | cons first wheel =>
      rw [if_neg (by simp)]
      rw [if_neg (by simp)] at placed
      split at placed
      · next known => exact .inl known
      · split at placed
        · next small => exact .inr small
        · cases placed

theorem place_spec {wheel : TimeWheel} {slotIndex : Nat} (timer : Timer)
    (fits : wheel.Fits slotIndex) :
    ∃ after, wheel.place slotIndex timer = some after ∧
      (after.timers : Multiset Timer) + wheel.replaced slotIndex =
        timer ::ₘ (wheel.timers : Multiset Timer) := by
  have single : ∀ old : Multiset Timer, old + ([timer] : List Timer) = timer ::ₘ old := by
    intro old
    rw [Multiset.coe_singleton, add_comm, Multiset.singleton_add]
  have grown : ∀ size, slotIndex < size → wheel.length ≤ size →
      ¬ slotIndex + 1 < wheel.length →
      (timers ((wheel.resize size).set slotIndex (some [timer])) : Multiset Timer) +
        wheel.replaced slotIndex = timer ::ₘ (wheel.timers : Multiset Timer) := by
    intro size inside grows last
    have bound : slotIndex < (wheel.resize size).length := by
      rw [length_resize grows]
      exact inside
    have exchanged := timers_set bound [timer]
    rw [slot_resize, timers_resize, single] at exchanged
    rw [replaced, if_neg last]
    exact exchanged
  rw [place]
  rw [Fits] at fits
  by_cases empty : wheel = []
  · subst empty
    rw [if_pos rfl] at fits
    rw [if_pos (by rfl)]
    by_cases zero : slotIndex = 0
    · subst zero
      rw [if_pos rfl]
      exact ⟨_, rfl, rfl⟩
    · have small := fits.resolve_left zero
      rw [if_neg zero, if_pos small]
      refine ⟨_, rfl, grown _ (Nat.lt_succ_self _) (Nat.zero_le _) (Nat.not_lt_zero _)⟩
  · rw [if_neg empty] at fits
    rw [if_neg (by simpa using empty)]
    by_cases known : slotIndex + 1 < wheel.length
    · rw [if_pos known]
      refine ⟨_, rfl, ?_⟩
      have exchanged := timers_set (Nat.lt_of_succ_lt known) (wheel.slot slotIndex ++ [timer])
      rw [← Multiset.coe_add, ← add_assoc, single, add_comm (wheel.timers : Multiset Timer),
        ← Multiset.add_cons, add_comm] at exchanged
      rw [replaced, if_pos known, Multiset.coe_nil, add_zero]
      exact add_left_cancel exchanged
    · have small := fits.resolve_left known
      rw [if_neg known, if_pos small]
      exact ⟨_, rfl, grown _ (by omega) (by omega) known⟩

end TimeWheel

namespace TimerManager

/-- The slot into which `addTimer` puts a timer. -/
def addIndex (manager : TimerManager) (interval : Int) : Int :=
  signed 32 (interval.tmod manager.slotInterval)

/-- The slot in which `removeTimer` looks for a timer. -/
def removeIndex (manager : TimerManager) (timer : Timer) : Int :=
  signed 32 (timer.interval.tdiv manager.slotInterval)

/-- The first timer of the slot in which `removeTimer` looks, if there is one. -/
def front (manager : TimerManager) (timer : Timer) : Option Timer :=
  if manager.removeIndex timer < 0 then none
  else (manager.timeWheel.slot (manager.removeIndex timer).toNat).head?

/-- `removeTimer` neither divides by zero, nor indexes the wheel with `-1`, nor computes a
size that does not fit into an `int`. -/
def Searches (manager : TimerManager) (timer : Timer) : Prop :=
  manager.slotInterval ≠ 0 ∧ manager.removeIndex timer ≠ -1 ∧
    manager.removeIndex timer + 1 ≠ 2 ^ 31

theorem addTimer_spec (manager : TimerManager) {interval : Int}
    (positive : manager.slotInterval ≠ 0) (index : 0 ≤ manager.addIndex interval)
    (fits : manager.timeWheel.Fits (manager.addIndex interval).toNat)
    (repeatedCount now : Int) :
    ∃ added, manager.addTimer repeatedCount interval now = some added ∧
      (added.2.timeWheel.timers : Multiset Timer) +
          manager.timeWheel.replaced (manager.addIndex interval).toNat =
        ⟨manager.created + 1, repeatedCount, interval, signed 64 (now + interval)⟩ ::ₘ
          (manager.timeWheel.timers : Multiset Timer) := by
  rcases TimeWheel.place_spec
      ⟨manager.created + 1, repeatedCount, interval, signed 64 (now + interval)⟩ fits with
    ⟨after, placed, exchanged⟩
  rw [addIndex] at index placed
  have allowed : ¬ (manager.slotInterval = 0 ∨
      signed 32 (interval.tmod manager.slotInterval) < 0) := by
    rintro (zero | negative)
    · exact positive zero
    · omega
  unfold addTimer
  dsimp only
  rw [if_neg allowed, placed]
  exact ⟨_, rfl, exchanged⟩

theorem addTimer_defined {manager : TimerManager} {repeatedCount interval now : Int}
    {added : Int × TimerManager}
    (taken : manager.addTimer repeatedCount interval now = some added) :
    manager.slotInterval ≠ 0 ∧ 0 ≤ manager.addIndex interval ∧
      manager.timeWheel.Fits (manager.addIndex interval).toNat := by
  unfold addTimer at taken
  dsimp only at taken
  split at taken
  · cases taken
  · next allowed =>
    rcases not_or.mp allowed with ⟨positive, index⟩
    rcases Option.bind_eq_some_iff.mp taken with ⟨after, placed, _⟩
    exact ⟨positive, Int.not_lt.mp index, TimeWheel.place_fits placed⟩

theorem removeTimer_defined {manager : TimerManager} {timer : Timer}
    {removed : Bool × TimerManager} (taken : manager.removeTimer timer = some removed) :
    manager.Searches timer := by
  unfold removeTimer at taken
  dsimp only at taken
  split at taken
  · cases taken
  · next allowed =>
    rcases not_or.mp allowed with ⟨positive, rest⟩
    exact ⟨positive, not_or.mp rest⟩

theorem removeTimer_spec {manager : TimerManager} {timer : Timer}
    (searches : manager.Searches timer) :
    match manager.front timer with
    | none => manager.removeTimer timer = some (false, manager)
    | some first => ∃ after, manager.removeTimer timer = some (true, after) ∧
        first ::ₘ (after.timeWheel.timers : Multiset Timer) = manager.timeWheel.timers := by
  rcases searches with ⟨positive, notBefore, small⟩
  have allowed : ¬ (manager.slotInterval = 0 ∨ manager.removeIndex timer = -1 ∨
      manager.removeIndex timer + 1 = 2 ^ 31) := by
    rintro (zero | before | large)
    · exact positive zero
    · exact notBefore before
    · exact small large
  unfold front removeTimer
  dsimp only
  rw [← removeIndex, if_neg allowed]
  by_cases negative : manager.removeIndex timer < 0
  · rw [if_pos negative, if_pos (.inl (by omega))]
  · rw [if_neg negative]
    by_cases outside : (manager.timeWheel.length : Int) < manager.removeIndex timer + 1
    · have empty : manager.timeWheel.slot (manager.removeIndex timer).toNat = [] :=
        TimeWheel.slot_of_length_le (by omega)
      rw [empty, if_pos (.inr outside)]
      rfl
    · rw [if_neg (by omega)]
      cases found : manager.timeWheel.slot (manager.removeIndex timer).toNat with
      | nil => rfl
      | cons first rest =>
          have inside : (manager.removeIndex timer).toNat < manager.timeWheel.length := by omega
          have exchanged := TimeWheel.timers_set inside rest
          rw [found, ← Multiset.cons_coe, Multiset.add_cons, ← Multiset.cons_add] at exchanged
          exact ⟨_, rfl, add_right_cancel exchanged⟩

end TimerManager

/-! ## Whole runs -/

namespace WheelHistory

theorem create_inStep (slotInterval : Int) : (create slotInterval).InStep where
  held := rfl
  agreed := rfl

/-- A new timer does not go into the last slot of the wheel while that has timers, and a
timer that is to be removed is the first one of the slot in which `removeTimer` looks, or
is not in the wheel and that slot has none. -/
def Permits (history : WheelHistory) : WheelCall → Prop
  | .addTimer _ interval _ =>
      history.manager.slotInterval ≠ 0 ∧ 0 ≤ history.manager.addIndex interval ∧
        history.manager.timeWheel.Fits (history.manager.addIndex interval).toNat ∧
        history.manager.timeWheel.replaced (history.manager.addIndex interval).toNat = []
  | .removeTimer timer =>
      history.manager.Searches timer ∧
        history.manager.front timer =
          if timer ∈ history.manager.timeWheel.timers then some timer else none

theorem step_inStep {history : WheelHistory} (inStep : history.InStep) {call : WheelCall}
    (permitted : history.Permits call) :
    ∃ next, history.step call = some next ∧ next.InStep := by
  cases call with
  | addTimer repeatedCount interval now =>
      rcases permitted with ⟨positive, index, fits, nothing⟩
      rcases history.manager.addTimer_spec positive index fits repeatedCount now with
        ⟨added, taken, exchanged⟩
      rw [nothing, Multiset.coe_nil, add_zero, inStep.held] at exchanged
      refine ⟨_, by simp only [step, taken]; rfl, ?_, ?_⟩
      · exact exchanged
      · rfl
  | removeTimer timer =>
      rcases permitted with ⟨searches, front⟩
      have removes := TimerManager.removeTimer_spec searches
      rw [front] at removes
      by_cases present : timer ∈ history.manager.timeWheel.timers
      · rw [if_pos present] at removes
        rcases removes with ⟨after, taken, taking⟩
        have member : timer ∈ history.held := by
          rw [← inStep.held]
          exact present
        refine ⟨_, by simp only [step, taken]; rfl, ?_, ?_⟩
        · change (after.timeWheel.timers : Multiset Timer) = history.held.erase timer
          rw [← inStep.held, ← taking, Multiset.erase_cons_head]
        · change (true == decide (timer ∈ history.held)) = true
          simp [member]
      · rw [if_neg present] at removes
        have member : timer ∉ history.held := by
          rw [← inStep.held]
          exact present
        refine ⟨_, by simp only [step, removes]; rfl, ?_, ?_⟩
        · change (history.manager.timeWheel.timers : Multiset Timer) = history.held.erase timer
          rw [inStep.held, Multiset.erase_of_notMem member]
        · change (false == decide (timer ∈ history.held)) = true
          simp [member]

theorem permits_of_inStep {history next : WheelHistory} {call : WheelCall}
    (inStep : history.InStep) (taken : history.step call = some next)
    (after : next.InStep) : history.Permits call := by
  cases call with
  | addTimer repeatedCount interval now =>
      rcases Option.bind_eq_some_iff.mp taken with ⟨added, adds, rest⟩
      cases rest
      rcases TimerManager.addTimer_defined adds with ⟨positive, index, fits⟩
      rcases history.manager.addTimer_spec positive index fits repeatedCount now with
        ⟨same, addsAgain, exchanged⟩
      rw [adds] at addsAgain
      cases addsAgain
      refine ⟨positive, index, fits, ?_⟩
      have held := after.held
      dsimp only at held
      rw [held, ← inStep.held, add_eq_left] at exchanged
      exact Multiset.coe_eq_zero _ |>.mp exchanged
  | removeTimer timer =>
      rcases Option.bind_eq_some_iff.mp taken with ⟨removed, removes, rest⟩
      cases rest
      have searches := TimerManager.removeTimer_defined removes
      have effect := TimerManager.removeTimer_spec searches
      have held : (removed.2.timeWheel.timers : Multiset Timer) = history.held.erase timer :=
        after.held
      have told : removed.1 = decide (timer ∈ history.held) := beq_iff_eq.mp after.agreed
      rw [← inStep.held] at held told
      refine ⟨searches, ?_⟩
      cases front : history.manager.front timer with
      | none =>
          rw [front] at effect
          rw [effect] at removes
          cases removes
          have absent : timer ∉ history.manager.timeWheel.timers :=
            of_decide_eq_false told.symm
          rw [if_neg absent]
      | some first =>
          rw [front] at effect
          rcases effect with ⟨rest, takes, taking⟩
          rw [takes] at removes
          cases removes
          have present : timer ∈ history.manager.timeWheel.timers :=
            of_decide_eq_true told.symm
          rw [if_pos present]
          have back := Multiset.cons_erase (Multiset.mem_coe.mpr present)
          rw [← held, ← taking] at back
          rw [(Multiset.cons_inj_left _).mp back]

end WheelHistory

/-- The wheel holds what was added and not removed, and every `removeTimer` tells the
truth, all along a run exactly if each of its calls is permitted. -/
theorem wheel_run_inStep_iff (slotInterval : Int) (calls : List WheelCall) :
    Machine.RunHolds WheelHistory.step WheelHistory.InStep (.create slotInterval) calls ↔
      Machine.RunPermits WheelHistory.step WheelHistory.Permits (.create slotInterval) calls := by
  apply Machine.runHolds_iff_runPermits (fun _ inStep => inStep)
  · intro history call inStep permitted
    exact WheelHistory.step_inStep inStep permitted
  · intro history call next inStep taken after
    exact WheelHistory.permits_of_inStep inStep taken after
  · exact WheelHistory.create_inStep slotInterval

/-- A second timer for the only slot of the wheel takes the place of the first. -/
theorem second_timer_replaces_first :
    ¬ Machine.RunHolds WheelHistory.step WheelHistory.InStep (.create 10)
      [.addTimer 1 0 0, .addTimer 1 0 0] := by
  intro run
  rcases run with ⟨_, first, taken, _, second, takenNext, inStep⟩
  cases taken
  cases takenNext
  exact absurd (congrArg Multiset.card inStep.held) (by decide)

end MyBookSources.TimerV3
