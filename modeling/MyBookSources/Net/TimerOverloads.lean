import MyBookSources.Net.TimerRuns

/-! # The overloads of addTimer

For a callback that is passed by reference `addTimer` makes a timer without its repeat count,
which repeats for ever; `runAt` and `runAfter`, which are to run a callback once, are overloaded
in the same way.
-/

namespace MyBookSources.Net

open Machine

namespace EventLoop

/-- The timers after `runAt`, which is to run its callback once. -/
def runAt (timers : TimerList) (moved : Bool) (address : Nat) (time : Int) : TimerList :=
  TimerQueue.addTimer timers moved address time 0 1

def runAfter (timers : TimerList) (moved : Bool) (address : Nat) (now delay : Int) : TimerList :=
  runAt timers moved address (now + delay)

end EventLoop

namespace TimerQueue

/-- From any queue, and under all later steps that do not add it again, the timer runs at the
same steps whichever overload has added it. -/
def OverloadsAgree (when interval repeatCount : Int) : Prop :=
  ∀ timers address, address ∉ addresses timers →
    ∀ labels : List TimerStep, (∀ label ∈ labels, ¬ label.Adds address) →
      runsAt address (addTimer timers false address when interval repeatCount) labels =
        runsAt address (addTimer timers true address when interval repeatCount) labels

/-- A timer that is added in this way runs at most once. -/
def RunsOnce (added : TimerList → Nat → TimerList) : Prop :=
  ∀ timers address, address ∉ addresses timers →
    ∀ labels : List TimerStep, (∀ label ∈ labels, ¬ label.Adds address) →
      (runsAt address (added timers address) labels).sum ≤ 1

end TimerQueue

/-! ## A repeat count that does not matter -/

def Timer.forget (address : Nat) (timer : Timer) : Timer :=
  if timer.address = address then { timer with repeatCount := -1 } else timer

def Entry.forget (address : Nat) (entry : Entry) : Entry :=
  { entry with timer := entry.timer.forget address }

namespace Timer

@[simp] theorem forget_address (address : Nat) (timer : Timer) :
    (timer.forget address).address = timer.address := by
  unfold forget
  split
  · rfl
  · rfl

@[simp] theorem forget_expiration (address : Nat) (timer : Timer) :
    (timer.forget address).expiration = timer.expiration := by
  unfold forget
  split
  · rfl
  · rfl

theorem cancel_forget (address : Nat) (off : Bool) (timer : Timer) :
    (timer.forget address).cancel off = (timer.cancel off).forget address := by
  by_cases same : timer.address = address
  · simp [forget, cancel, same]
  · simp [forget, cancel, same]

theorem run_negative {timer : Timer} (negative : timer.repeatCount < 0) :
    timer.run.2.repeatCount < 0 := by
  unfold run
  split
  · exact negative
  · split
    · next counted =>
      dsimp only
      rw [if_neg (by omega)]
      dsimp only
      omega
    · exact negative

theorem forget_repeatCount_eq_zero_iff {address : Nat} {timer : Timer}
    (negative : timer.address = address → timer.repeatCount < 0) :
    (timer.forget address).repeatCount = 0 ↔ timer.repeatCount = 0 := by
  by_cases same : timer.address = address
  · have below := negative same
    have more : timer.repeatCount ≠ 0 := by omega
    simp [forget, same, more]
  · simp [forget, same]

theorem run_forget {address : Nat} {timer : Timer}
    (negative : timer.address = address → timer.repeatCount < 0) :
    (timer.forget address).run = (timer.run.1, timer.run.2.forget address) := by
  by_cases same : timer.address = address
  · have below := negative same
    have more : timer.repeatCount - 1 ≠ 0 := by omega
    cases canceled : timer.canceled with
    | true => simp [forget, run, same, canceled]
    | false =>
        by_cases forever : timer.repeatCount = -1
        · simp [forget, run, same, canceled, forever]
        · simp [forget, run, same, canceled, forever, more]
  · simp [forget, same]

end Timer

namespace TimerQueue

/-- The timer with the address, if there is one, has a count below zero. -/
def Negative (address : Nat) (timers : TimerList) : Prop :=
  ∀ entry ∈ timers, entry.timer.address = address → entry.timer.repeatCount < 0

theorem map_forget_insert (address : Nat) (timers : TimerList) (timer : Timer) :
    (insert timers timer).map (Entry.forget address) =
      insert (timers.map (Entry.forget address)) (timer.forget address) := by
  have order (left right : Entry) :
      left.le right ↔ (left.forget address).le (right.forget address) := by
    simp [Entry.le, Entry.forget]
  have inserted := List.map_orderedInsert (r := Entry.le) (s := Entry.le) (Entry.forget address)
    timers ⟨timer.expiration, timer⟩ (fun entry _ => order entry _) (fun entry _ => order _ entry)
  simpa [insert, Entry.forget] using inserted

theorem map_forget_removeTimer (address other : Nat) (timers : TimerList) :
    (removeTimer timers other).map (Entry.forget address) =
      removeTimer (timers.map (Entry.forget address)) other := by
  rw [removeTimer, removeTimer, List.eraseP_map]
  congr 2
  ext entry
  simp [Entry.forget]

theorem map_forget_cancel (address other : Nat) (off : Bool) (timers : TimerList) :
    (cancel timers other off).map (Entry.forget address) =
      cancel (timers.map (Entry.forget address)) other off := by
  induction timers with
  | nil => rfl
  | cons entry entries induction =>
      have same : (entry.forget address).timer.address = entry.timer.address :=
        Timer.forget_address address entry.timer
      rw [List.map_cons, cancel, cancel, same]
      split
      · simp [Entry.forget, Timer.cancel_forget]
      · exact congrArg (entry.forget address :: ·) induction

theorem negative_cancel {address : Nat} (other : Nat) (off : Bool) {timers : TimerList}
    (negative : Negative address timers) : Negative address (cancel timers other off) := by
  induction timers with
  | nil => exact negative
  | cons entry entries induction =>
      rcases List.forall_mem_cons.mp negative with ⟨head, rest⟩
      rw [cancel]
      split
      · exact List.forall_mem_cons.mpr ⟨head, rest⟩
      · exact List.forall_mem_cons.mpr ⟨head, induction rest⟩

theorem doTimer_forget (now : Int) {address : Nat} {timers : TimerList}
    (negative : Negative address timers) :
    doTimer now (timers.map (Entry.forget address)) =
        ((doTimer now timers).1, (doTimer now timers).2.map (Entry.forget address)) ∧
      Negative address (doTimer now timers).2 := by
  induction timers with
  | nil => exact ⟨rfl, negative⟩
  | cons entry entries induction =>
      rcases List.forall_mem_cons.mp negative with ⟨head, rest⟩
      rcases induction rest with ⟨same, after⟩
      have ran := Timer.run_forget head
      have headAfter : entry.timer.run.2.address = address → entry.timer.run.2.repeatCount < 0 := by
        intro own
        rw [Timer.run_address] at own
        exact Timer.run_negative (head own)
      have goes := Timer.forget_repeatCount_eq_zero_iff headAfter
      by_cases expired : entry.timer.expiration ≤ now
      · have expiredForget : (entry.forget address).timer.expiration ≤ now := by
          rw [Entry.forget, Timer.forget_expiration]
          exact expired
        rw [List.map_cons, doTimer, if_pos expiredForget, doTimer, if_pos expired, same]
        simp only [Entry.forget, ran, goes, Timer.forget_address]
        by_cases last : entry.timer.run.2.repeatCount = 0
        · simp only [last, if_true]
          exact ⟨trivial, after⟩
        · simp only [last, if_false]
          exact ⟨rfl, List.forall_mem_cons.mpr ⟨headAfter, after⟩⟩
      · have notExpired : ¬ (entry.forget address).timer.expiration ≤ now := by
          rw [Entry.forget, Timer.forget_expiration]
          exact expired
        rw [List.map_cons, doTimer, if_neg notExpired, doTimer, if_neg expired]
        exact ⟨rfl, negative⟩

/-- The same timers, but for a count below zero that one of them has forgotten. -/
def Forgotten (address : Nat) (left right : TimerList) : Prop :=
  left = right.map (Entry.forget address) ∧ Negative address right

theorem Forgotten.step {address : Nat} {left right : TimerList}
    (forgotten : Forgotten address left right) {label : TimerStep}
    (other : ¬ label.Adds address) :
    (TimerQueue.step left label).2 = (TimerQueue.step right label).2 ∧
      Forgotten address (TimerQueue.step left label).1 (TimerQueue.step right label).1 := by
  rcases forgotten with ⟨rfl, negative⟩
  cases label with
  | addTimer moved added when interval repeatCount =>
      have different : added ≠ address := other
      refine ⟨rfl, ?_, ?_⟩
      · have own : (⟨added, when, interval, if moved then repeatCount else -1, false⟩ : Timer) =
            Timer.forget address
              ⟨added, when, interval, if moved then repeatCount else -1, false⟩ := by
          rw [Timer.forget, if_neg different]
        rw [TimerQueue.step, TimerQueue.step, addTimer, addTimer, map_forget_insert, ← own]
      · intro entry member own
        rcases (List.mem_orderedInsert Entry.le).mp member with rfl | old
        · exact absurd own different
        · exact negative entry old own
  | removeTimer removed =>
      refine ⟨rfl, (map_forget_removeTimer address removed right).symm, ?_⟩
      intro entry member own
      exact negative entry (List.mem_of_mem_eraseP member) own
  | cancel canceled off =>
      exact ⟨rfl, (map_forget_cancel address canceled off right).symm,
        negative_cancel canceled off negative⟩
  | doTimer now =>
      rcases doTimer_forget now negative with ⟨same, after⟩
      rw [TimerQueue.step, TimerQueue.step, same]
      exact ⟨rfl, rfl, after⟩

theorem forgotten_added {timers : TimerList} {address : Nat} (fresh : address ∉ addresses timers)
    (when interval : Int) {repeatCount : Int} (below : repeatCount < 0) :
    Forgotten address (addTimer timers false address when interval repeatCount)
      (addTimer timers true address when interval repeatCount) := by
  have unchanged : timers.map (Entry.forget address) = timers := by
    rw [List.map_congr_left, List.map_id]
    intro entry member
    have other : entry.timer.address ≠ address := by
      intro same
      rw [← same] at fresh
      exact fresh (List.mem_map_of_mem member)
    simp [Entry.forget, Timer.forget, other]
  constructor
  · rw [addTimer, addTimer, map_forget_insert, unchanged]
    simp [Timer.forget]
  · intro entry member own
    rcases (List.mem_orderedInsert Entry.le).mp member with rfl | old
    · exact below
    · rw [← own] at fresh
      exact absurd (List.mem_map_of_mem old) fresh

theorem overloadsAgree_of_negative (when interval : Int) {repeatCount : Int}
    (below : repeatCount < 0) : OverloadsAgree when interval repeatCount := by
  intro timers address fresh labels once
  have kept (left right : TimerList) (label : TimerStep) (other : ¬ label.Adds address)
      (forgotten : Forgotten address left right) := forgotten.step other
  have related := runOutputs_related_of kept (forgotten_added fresh when interval below) once
  rw [runsAt, runsAt, related.1]

/-! ## A repeat count that does -/

def rounds (first interval : Int) : Nat → List TimerStep
  | 0 => []
  | count + 1 => .doTimer first :: rounds (first + interval) interval count

theorem not_adds_of_mem_rounds {first interval : Int} {count : Nat} {label : TimerStep}
    (member : label ∈ rounds first interval count) (address : Nat) : ¬ label.Adds address := by
  induction count generalizing first with
  | zero => cases member
  | succ count induction =>
      rcases List.mem_cons.mp member with rfl | later
      · exact id
      · exact induction later

theorem runsAt_forever (key first interval : Int) (address count : Nat) :
    runsAt address [⟨key, ⟨address, first, interval, -1, false⟩⟩] (rounds first interval count) =
      List.replicate count 1 := by
  induction count generalizing first with
  | zero => rfl
  | succ count induction =>
      have round : step [⟨key, ⟨address, first, interval, -1, false⟩⟩] (.doTimer first) =
          ([⟨key, ⟨address, first + interval, interval, -1, false⟩⟩], [address]) := by
        simp [step, doTimer, Timer.run]
      have later := induction (first + interval)
      rw [runsAt] at later ⊢
      rw [rounds, runOutputs, round, List.map_cons, later, List.replicate_succ,
        List.count_singleton_self]

theorem addTimer_reference (address : Nat) (when interval repeatCount : Int) :
    addTimer [] false address when interval repeatCount =
      [⟨when, ⟨address, when, interval, -1, false⟩⟩] :=
  rfl

/-- The timer with the count stops after it, the other one does not. -/
theorem not_overloadsAgree_of_positive (when interval : Int) {count : Nat} (positive : 1 ≤ count) :
    ¬ OverloadsAgree when interval count := by
  intro agree
  have labels := fun label (member : label ∈ rounds when interval (count + 1)) =>
    not_adds_of_mem_rounds member 0
  have same := agree [] 0 (by simp [addresses]) (rounds when interval (count + 1)) labels
  have few := (@stands_after 0 when interval count [] positive (by simp [addresses])
    (rounds when interval (count + 1)) labels).1.1
  rw [addTimer_reference, runsAt_forever] at same
  rw [addTimer, if_pos rfl] at same
  rw [← same, List.sum_replicate_nat] at few
  omega

/-- A timer with the count zero leaves the queue while it is canceled. -/
theorem not_overloadsAgree_zero (when interval : Int) : ¬ OverloadsAgree when interval 0 := by
  intro agree
  have same := agree [] 0 (by simp [addresses])
    [.cancel 0 true, .doTimer when, .cancel 0 false, .doTimer when] (by simp [TimerStep.Adds])
  have reference : runsAt 0 (addTimer [] false 0 when interval 0)
      [.cancel 0 true, .doTimer when, .cancel 0 false, .doTimer when] = [0, 0, 0, 1] := by
    simp [addTimer_reference, runsAt, runOutputs, step, cancel, Timer.cancel, doTimer, Timer.run]
  have moved : runsAt 0 (addTimer [] true 0 when interval 0)
      [.cancel 0 true, .doTimer when, .cancel 0 false, .doTimer when] = [0, 0, 0, 0] := by
    simp [addTimer, insert, runsAt, runOutputs, step, cancel, Timer.cancel, doTimer, Timer.run]
  rw [reference, moved] at same
  cases same

theorem overloadsAgree_iff_negative (when interval repeatCount : Int) :
    OverloadsAgree when interval repeatCount ↔ repeatCount < 0 := by
  constructor
  · intro agree
    by_contra above
    rcases Int.eq_ofNat_of_zero_le (Int.not_lt.mp above) with ⟨count, rfl⟩
    rcases Nat.eq_zero_or_pos count with rfl | positive
    · exact not_overloadsAgree_zero when interval agree
    · exact not_overloadsAgree_of_positive when interval positive agree
  · exact overloadsAgree_of_negative when interval

theorem runsOnce_runAt_iff (moved : Bool) (time : Int) :
    RunsOnce (fun timers address => EventLoop.runAt timers moved address time) ↔ moved = true := by
  cases moved with
  | true =>
      simp only [iff_true]
      intro timers address fresh labels once
      exact (@stands_after address time 0 1 timers (Nat.le_refl 1) fresh labels once).1.1
  | false =>
      simp only [Bool.false_eq_true, iff_false]
      intro runsOnce
      have twice : (runsAt 0 (addTimer [] false 0 time 0 1) (rounds time 0 2)).sum ≤ 1 :=
        runsOnce [] 0 (by simp [addresses]) (rounds time 0 2)
          fun label member => not_adds_of_mem_rounds member 0
      rw [addTimer_reference, runsAt_forever] at twice
      exact absurd twice (by decide)

end TimerQueue

/-- The overloads agree for the counts below zero and no others, and what is to run once does so
exactly if its callback is moved. -/
theorem addTimer_overloads (when interval repeatCount : Int) (moved : Bool)
    (time now delay : Int) :
    (TimerQueue.OverloadsAgree when interval repeatCount ↔ repeatCount < 0) ∧
      (TimerQueue.RunsOnce (fun timers address =>
        EventLoop.runAt timers moved address time) ↔ moved = true) ∧
      (TimerQueue.RunsOnce (fun timers address =>
        EventLoop.runAfter timers moved address now delay) ↔ moved = true) := by
  constructor
  · exact TimerQueue.overloadsAgree_iff_negative when interval repeatCount
  · constructor
    · exact TimerQueue.runsOnce_runAt_iff moved time
    · exact TimerQueue.runsOnce_runAt_iff moved (now + delay)

/-- A callback that is passed to `runAt` by reference runs in each of two rounds. -/
theorem runAt_by_reference_runs_twice :
    TimerQueue.runsAt 7 (EventLoop.runAt [] false 7 5) [.doTimer 5, .doTimer 6] = [1, 1] ∧
      TimerQueue.runsAt 7 (EventLoop.runAt [] true 7 5) [.doTimer 5, .doTimer 6] = [1, 0] ∧
      ¬ TimerQueue.OverloadsAgree 5 0 1 := by
  have reference : TimerQueue.runsAt 7 (EventLoop.runAt [] false 7 5) [.doTimer 5, .doTimer 6] =
      [1, 1] := by decide
  have moved : TimerQueue.runsAt 7 (EventLoop.runAt [] true 7 5) [.doTimer 5, .doTimer 6] =
      [1, 0] := by decide
  refine ⟨reference, moved, ?_⟩
  intro agree
  have same := agree [] 7 (by simp [addresses]) [.doTimer 5, .doTimer 6] (by simp [TimerStep.Adds])
  have same : [1, 1] = [1, 0] := reference.symm.trans (same.trans moved)
  cases same

end MyBookSources.Net
