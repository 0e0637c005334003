import MyBookSources.Foundation.Execution
import Mathlib.Data.List.Sort

/-! # The timer queue

`net::TimerQueue` keeps its timers in a set that is ordered by the expiration a timer
had when it was inserted. `run()` moves the expiration on and leaves the set as it is.
-/

namespace MyBookSources.Net

/-- `address` stands for the pointer by which the queue and its users know the timer. -/
structure Timer where
  address : Nat
  expiration : Int
  interval : Int
  repeatCount : Int
  canceled : Bool
  deriving DecidableEq

namespace Timer

def run (timer : Timer) : Bool × Timer :=
  if timer.canceled then (false, timer)
  else if timer.repeatCount ≠ -1 then
    let counted := { timer with repeatCount := timer.repeatCount - 1 }
    if counted.repeatCount = 0 then (true, counted)
    else (true, { counted with expiration := counted.expiration + counted.interval })
  else (true, { timer with expiration := timer.expiration + timer.interval })

def cancel (timer : Timer) (off : Bool) : Timer := { timer with canceled := off }

@[simp] theorem run_address (timer : Timer) : timer.run.2.address = timer.address := by
  unfold run
  split
  · rfl
  · split
    · dsimp only
      split <;> rfl
    · rfl

theorem run_of_live {timer : Timer} (live : timer.canceled = false) : timer.run.1 = true := by
  unfold run
  rw [if_neg (by simp [live])]
  split
  · dsimp only
    split <;> rfl
  · rfl

end Timer

/-- `TimerQueue::Entry`, the key and the timer. -/
structure Entry where
  key : Int
  timer : Timer
  deriving DecidableEq

/-- The order of `std::pair<Timestamp, Timer*>`. -/
def Entry.le (left right : Entry) : Prop :=
  left.key < right.key ∨ left.key = right.key ∧ left.timer.address ≤ right.timer.address

instance : DecidableRel Entry.le := fun left right =>
  inferInstanceAs (Decidable (left.key < right.key ∨
    left.key = right.key ∧ left.timer.address ≤ right.timer.address))

/-- The set `timers_` in its order. -/
abbrev TimerList := List Entry

namespace TimerQueue

def insert (timers : TimerList) (timer : Timer) : TimerList :=
  timers.orderedInsert Entry.le ⟨timer.expiration, timer⟩

/-- The overload that takes the callback by reference drops the repeat count. -/
def addTimer (timers : TimerList) (moved : Bool) (address : Nat)
    (when interval repeatCount : Int) : TimerList :=
  insert timers
    { address := address
      expiration := when
      interval := interval
      repeatCount := if moved then repeatCount else -1
      canceled := false }

def removeTimer (timers : TimerList) (address : Nat) : TimerList :=
  timers.eraseP fun entry => entry.timer.address == address

def cancel : TimerList → Nat → Bool → TimerList
  | [], _, _ => []
  | entry :: entries, address, off =>
      if entry.timer.address = address then
        { entry with timer := entry.timer.cancel off } :: entries
      else entry :: cancel entries address off

/-- The addresses of the timers whose callbacks ran, and the set afterwards. -/
def doTimer (now : Int) : TimerList → List Nat × TimerList
  | [] => ([], [])
  | entry :: entries =>
      if entry.timer.expiration ≤ now then
        let ran := entry.timer.run
        let rest := doTimer now entries
        (if ran.1 then entry.timer.address :: rest.1 else rest.1,
          if ran.2.repeatCount = 0 then rest.2 else { entry with timer := ran.2 } :: rest.2)
      else ([], entry :: entries)

/-- A one-shot timer and one that repeats, both due: the first leaves the set. -/
example : doTimer 5 [⟨3, ⟨7, 3, 0, 1, false⟩⟩, ⟨4, ⟨8, 4, 10, -1, false⟩⟩] =
    ([7, 8], [⟨4, ⟨8, 14, 10, -1, false⟩⟩]) := by decide

end TimerQueue

/-- The queue with the last reading of the clock and the timers ever created. Timers are
never deleted, so a new one has a new address. -/
structure TimerLoop where
  timers : TimerList
  clock : Int
  created : List Nat
  deriving DecidableEq

inductive TimerStep
  | addTimer (moved : Bool) (address : Nat) (when interval repeatCount : Int)
  | removeTimer (address : Nat)
  | cancel (address : Nat) (off : Bool)
  | doTimer (now : Int)

namespace TimerLoop

def start (clock : Int) : TimerLoop := ⟨[], clock, []⟩

def step (loop : TimerLoop) : TimerStep → Option TimerLoop
  | .addTimer moved address when interval repeatCount =>
      if address ∈ loop.created then none
      else some { loop with
        timers := TimerQueue.addTimer loop.timers moved address when interval repeatCount
        created := address :: loop.created }
  | .removeTimer address =>
      some { loop with timers := TimerQueue.removeTimer loop.timers address }
  | .cancel address off => some { loop with timers := TimerQueue.cancel loop.timers address off }
  | .doTimer now =>
      if now < loop.clock then none
      else some { loop with timers := (TimerQueue.doTimer now loop.timers).2, clock := now }

end TimerLoop

/-- Every history of the queue under a clock that does not go back. -/
def timerMachine : Machine TimerLoop TimerStep := .ofPartial TimerLoop.step

/-! ## Which timers run -/

def Entry.Due (now : Int) (entry : Entry) : Prop :=
  entry.timer.expiration ≤ now ∧ entry.timer.canceled = false

/-- `doTimer` runs the callback of every timer that is due. -/
def RunsDue (now : Int) (timers : TimerList) : Prop :=
  ∀ entry ∈ timers, entry.Due now → entry.timer.address ∈ (TimerQueue.doTimer now timers).1

/-- Nothing that expires later than `now` stands in front of a timer that is due. -/
def Unblocked (now : Int) (timers : TimerList) : Prop :=
  timers.Pairwise fun earlier later => later.Due now → earlier.timer.expiration ≤ now

def addresses (timers : TimerList) : List Nat := timers.map fun entry => entry.timer.address

namespace TimerQueue

theorem doTimer_of_due {now : Int} {entry : Entry} {entries : TimerList}
    (expired : entry.timer.expiration ≤ now) :
    (doTimer now (entry :: entries)).1 =
      if entry.timer.canceled then (doTimer now entries).1
      else entry.timer.address :: (doTimer now entries).1 := by
  rw [doTimer, if_pos expired]
  cases canceled : entry.timer.canceled with
  | true => simp [Timer.run, canceled]
  | false => simp [Timer.run_of_live canceled]

/-- On timers with different addresses, all that are due run exactly if none of them is
behind one that is not. -/
theorem runsDue_iff {now : Int} {timers : TimerList} (distinct : (addresses timers).Nodup) :
    RunsDue now timers ↔ Unblocked now timers := by
  induction timers with
  | nil => simp [RunsDue, Unblocked]
  | cons entry entries induction =>
      rcases List.nodup_cons.mp distinct with ⟨fresh, distinct⟩
      have fresh : entry.timer.address ∉ addresses entries := fresh
      have tail := induction distinct
      by_cases expired : entry.timer.expiration ≤ now
      · have head : RunsDue now (entry :: entries) ↔ RunsDue now entries := by
          rw [RunsDue, RunsDue, doTimer_of_due expired]
          constructor
          · intro all later member due
            have ran := all later (.tail _ member) due
            have other : later.timer.address ≠ entry.timer.address := by
              intro same
              rw [← same] at fresh
              exact fresh (List.mem_map_of_mem member)
            split at ran
            · exact ran
            · exact (List.mem_cons.mp ran).resolve_left other
          · intro rest later member due
            rcases List.mem_cons.mp member with rfl | member
            · rw [if_neg (by simp [due.2])]
              exact .head _
            · split
              · exact rest later member due
              · exact .tail _ (rest later member due)
        rw [head, tail, Unblocked, Unblocked, List.pairwise_cons]
        exact ⟨fun rest => ⟨fun _ _ _ => expired, rest⟩, fun both => both.2⟩
      · have stopped : (doTimer now (entry :: entries)).1 = [] := by
          simp [doTimer, expired]
        have headNotDue : ¬ entry.Due now := fun due => expired due.1
        constructor
        · intro all
          have noneDue (later : Entry) (member : later ∈ entries) : ¬ later.Due now := by
            intro due
            have ran := all later (.tail _ member) due
            rw [stopped] at ran
            cases ran
          refine List.pairwise_cons.mpr
            ⟨fun later member due => absurd due (noneDue later member), ?_⟩
          exact List.pairwise_of_forall_mem_list fun _ _ later member due =>
            absurd due (noneDue later member)
        · intro unblocked later member due
          rcases List.mem_cons.mp member with rfl | member
          · exact absurd due headNotDue
          · exact absurd ((List.pairwise_cons.mp unblocked).1 later member due) expired

/-! ## Every history keeps the addresses apart -/

theorem addresses_insert (timers : TimerList) (timer : Timer) :
    (addresses (insert timers timer)).Perm (timer.address :: addresses timers) :=
  (List.perm_orderedInsert Entry.le _ timers).map _

theorem addresses_removeTimer (timers : TimerList) (address : Nat) :
    (addresses (removeTimer timers address)).Sublist (addresses timers) :=
  List.eraseP_sublist.map _

theorem addresses_cancel (timers : TimerList) (address : Nat) (off : Bool) :
    addresses (cancel timers address off) = addresses timers := by
  induction timers with
  | nil => rfl
  | cons entry entries induction =>
      unfold cancel
      split
      · rfl
      · exact congrArg (entry.timer.address :: ·) induction

theorem addresses_doTimer (now : Int) (timers : TimerList) :
    (addresses (doTimer now timers).2).Sublist (addresses timers) := by
  induction timers with
  | nil => exact .slnil
  | cons entry entries induction =>
      unfold doTimer
      split
      · dsimp only
        split
        · exact induction.cons _
        · rw [addresses, List.map_cons, Timer.run_address]
          exact induction.cons_cons _
      · exact List.Sublist.refl _

end TimerQueue

namespace TimerLoop

/-- The timers in the queue were created and have different addresses. -/
structure Distinct (loop : TimerLoop) : Prop where
  nodup : (addresses loop.timers).Nodup
  created : addresses loop.timers ⊆ loop.created

theorem distinct_of_sublist {before after : TimerLoop} (distinct : before.Distinct)
    (fewer : (addresses after.timers).Sublist (addresses before.timers))
    (created : after.created = before.created) : after.Distinct where
  nodup := distinct.nodup.sublist fewer
  created := by
    rw [created]
    exact List.Subset.trans fewer.subset distinct.created

theorem step_distinct {before after : TimerLoop} {label : TimerStep}
    (distinct : before.Distinct) (taken : timerMachine.Step before label after) :
    after.Distinct := by
  change before.step label = some after at taken
  cases label with
  | addTimer moved address when interval repeatCount =>
      simp only [step] at taken
      split at taken
      · cases taken
      · next fresh =>
        cases taken
        have inserted := TimerQueue.addresses_insert before.timers
          ⟨address, when, interval, if moved then repeatCount else -1, false⟩
        refine ⟨inserted.nodup_iff.mpr (List.nodup_cons.mpr ⟨?_, distinct.nodup⟩), ?_⟩
        · exact fun member => fresh (distinct.created member)
        · exact fun _ member => List.cons_subset_cons _ distinct.created (inserted.subset member)
  | removeTimer address =>
      cases taken
      exact distinct_of_sublist distinct (TimerQueue.addresses_removeTimer _ _) rfl
  | cancel address off =>
      cases taken
      refine distinct_of_sublist distinct ?_ rfl
      rw [TimerQueue.addresses_cancel]
  | doTimer now =>
      simp only [step] at taken
      split at taken
      · cases taken
      · cases taken
        exact distinct_of_sublist distinct (TimerQueue.addresses_doTimer _ _) rfl

end TimerLoop

/-- In every reachable state and at every reading of the clock, `doTimer` runs every timer
that is due exactly if no timer that expires later stands in front of one in the order of
the keys. -/
theorem doTimer_runs_due_iff {clock : Int} {labels : List TimerStep} {loop : TimerLoop}
    (run : timerMachine.Transitions (.start clock) labels loop) (now : Int) :
    RunsDue now loop.timers ↔ Unblocked now loop.timers := by
  have distinct : loop.Distinct :=
    run.invariant (fun _ _ _ holds taken => TimerLoop.step_distinct holds taken)
      ⟨.nil, List.nil_subset _⟩
  exact TimerQueue.runsDue_iff distinct.nodup

/-- A timer that repeats and a one-shot timer, both due at time five. -/
theorem doTimer_runs_due_iff_both :
    RunsDue 5 [⟨0, ⟨1, 0, 1000, -1, false⟩⟩, ⟨5, ⟨2, 5, 0, 1, false⟩⟩] := by
  have run : timerMachine.Transitions (.start 0)
      [.addTimer true 1 0 1000 (-1), .addTimer true 2 5 0 1]
      ⟨[⟨0, ⟨1, 0, 1000, -1, false⟩⟩, ⟨5, ⟨2, 5, 0, 1, false⟩⟩], 0, [2, 1]⟩ :=
    Machine.transitions_of_runPartial (by decide)
  exact (doTimer_runs_due_iff run 5).mpr (by simp [Unblocked])

/-- The repeating timer runs at time zero and is due again at time 1000, but keeps its
place in front of the one-shot timer, which is not run at time ten. -/
theorem repeating_timer_blocks_due_timer :
    ¬ ∀ (clock now : Int) (labels : List TimerStep) (loop : TimerLoop),
      timerMachine.Transitions (.start clock) labels loop → loop.clock ≤ now →
        RunsDue now loop.timers := by
  intro law
  have run : timerMachine.Transitions (.start 0)
      [.addTimer true 1 0 1000 (-1), .addTimer true 2 5 0 1, .doTimer 0]
      ⟨[⟨0, ⟨1, 1000, 1000, -1, false⟩⟩, ⟨5, ⟨2, 5, 0, 1, false⟩⟩], 0, [2, 1]⟩ :=
    Machine.transitions_of_runPartial (by decide)
  have ran := law 0 10 _ _ run (by decide) ⟨5, ⟨2, 5, 0, 1, false⟩⟩ (by decide)
    ⟨by decide, rfl⟩
  exact absurd ran (by decide)

/-! ## Timers that keep their expiration -/

def Timer.Fixed (timer : Timer) : Prop := timer.interval = 0 ∨ timer.repeatCount = 1

def TimerStep.Fixed : TimerStep → Prop
  | .addTimer moved _ _ interval repeatCount =>
      interval = 0 ∨ moved = true ∧ repeatCount = 1
  | _ => True

def keys (timers : TimerList) : List Int := timers.map Entry.key

structure Aligned (timers : TimerList) : Prop where
  sorted : (keys timers).Pairwise (· ≤ ·)
  exact : ∀ entry ∈ timers, entry.key = entry.timer.expiration ∧ entry.timer.Fixed

theorem Aligned.unblocked {timers : TimerList} (aligned : Aligned timers) (now : Int) :
    Unblocked now timers := by
  have sorted := List.pairwise_map.mp aligned.sorted
  apply sorted.imp_of_mem
  intro earlier later earlierMember laterMember ordered due
  have earlierKey := (aligned.exact _ earlierMember).1
  have laterKey := (aligned.exact _ laterMember).1
  have expired := due.1
  omega

theorem Aligned.of_sublist {before after : TimerList} (aligned : Aligned before)
    (fewer : after.Sublist before) : Aligned after where
  sorted := aligned.sorted.sublist (fewer.map Entry.key)
  exact entry member := aligned.exact entry (fewer.subset member)

theorem Timer.run_fixed {timer : Timer} (fixed : timer.Fixed)
    (remains : timer.run.2.repeatCount ≠ 0) :
    timer.run.2.expiration = timer.expiration ∧ timer.run.2.Fixed := by
  unfold Timer.run at remains ⊢
  split
  · exact ⟨rfl, fixed⟩
  · next live =>
    rw [if_neg live] at remains
    split
    · next counted =>
      rw [if_pos counted] at remains
      dsimp only at remains ⊢
      split
      · next done => simp [done] at remains
      · next more =>
        rcases fixed with still | once
        · exact ⟨by simp [still], .inl still⟩
        · simp [once] at more
    · next forever =>
      rcases fixed with still | once
      · exact ⟨by simp [still], .inl still⟩
      · simp [once] at forever

namespace TimerQueue

theorem insert_aligned {timers : TimerList} {timer : Timer} (aligned : Aligned timers)
    (fixed : timer.Fixed) : Aligned (insert timers timer) := by
  refine ⟨?_, fun entry member => ?_⟩
  · rcases aligned with ⟨sorted, -⟩
    induction timers with
    | nil => exact List.pairwise_singleton _ _
    | cons entry entries induction =>
        rcases List.pairwise_cons.mp sorted with ⟨first, rest⟩
        unfold insert
        rw [List.orderedInsert_cons]
        split
        · next before =>
          have lower : timer.expiration ≤ entry.key := by
            rcases before with less | same
            · exact Int.le_of_lt less
            · exact Int.le_of_eq same.1
          refine List.pairwise_cons.mpr ⟨fun key member => ?_, sorted⟩
          rcases List.mem_cons.mp member with rfl | later
          · exact lower
          · exact Int.le_trans lower (first key later)
        · next after =>
          have lower : entry.key ≤ timer.expiration := by
            by_contra above
            exact after (.inl (by simpa using above))
          refine List.pairwise_cons.mpr ⟨fun key member => ?_, induction rest⟩
          have inserted : (keys (insert entries timer)).Perm (timer.expiration :: keys entries) :=
            (List.perm_orderedInsert Entry.le _ entries).map _
          rcases List.mem_cons.mp (inserted.subset member) with rfl | later
          · exact lower
          · exact first key later
  · rcases (List.mem_orderedInsert Entry.le).mp member with rfl | old
    · exact ⟨rfl, fixed⟩
    · exact aligned.exact entry old

theorem keys_cancel (timers : TimerList) (address : Nat) (off : Bool) :
    keys (cancel timers address off) = keys timers := by
  induction timers with
  | nil => rfl
  | cons entry entries induction =>
      unfold cancel
      split
      · rfl
      · exact congrArg (entry.key :: ·) induction

theorem cancel_aligned {timers : TimerList} (aligned : Aligned timers) (address : Nat)
    (off : Bool) : Aligned (cancel timers address off) := by
  refine ⟨by rw [keys_cancel]; exact aligned.sorted, ?_⟩
  have members := aligned.exact
  clear aligned
  induction timers with
  | nil => exact members
  | cons entry entries induction =>
      rcases List.forall_mem_cons.mp members with ⟨head, rest⟩
      unfold cancel
      split
      · exact List.forall_mem_cons.mpr ⟨head, rest⟩
      · exact List.forall_mem_cons.mpr ⟨head, induction rest⟩

theorem keys_doTimer (now : Int) (timers : TimerList) :
    (keys (doTimer now timers).2).Sublist (keys timers) := by
  induction timers with
  | nil => exact .slnil
  | cons entry entries induction =>
      unfold doTimer
      split
      · dsimp only
        split
        · exact induction.cons _
        · exact induction.cons_cons _
      · exact List.Sublist.refl _

theorem doTimer_aligned {timers : TimerList} (aligned : Aligned timers) (now : Int) :
    Aligned (doTimer now timers).2 := by
  refine ⟨aligned.sorted.sublist (keys_doTimer now timers), ?_⟩
  have members := aligned.exact
  clear aligned
  induction timers with
  | nil => exact members
  | cons entry entries induction =>
      rcases List.forall_mem_cons.mp members with ⟨head, rest⟩
      unfold doTimer
      split
      · dsimp only
        split
        · exact induction rest
        · next remains =>
          rcases Timer.run_fixed head.2 remains with ⟨same, fixed⟩
          exact List.forall_mem_cons.mpr ⟨⟨by rw [same]; exact head.1, fixed⟩, induction rest⟩
      · exact members

end TimerQueue

theorem TimerLoop.step_aligned {before after : TimerLoop} {label : TimerStep}
    (aligned : Aligned before.timers) (taken : timerMachine.Step before label after)
    (fixed : label.Fixed) : Aligned after.timers := by
  change before.step label = some after at taken
  cases label with
  | addTimer moved address when interval repeatCount =>
      simp only [step] at taken
      split at taken
      · cases taken
      · cases taken
        apply TimerQueue.insert_aligned aligned
        rcases fixed with still | ⟨moved, once⟩
        · exact .inl still
        · exact .inr (by simp [moved, once])
  | removeTimer address =>
      cases taken
      exact aligned.of_sublist List.eraseP_sublist
  | cancel address off =>
      cases taken
      exact TimerQueue.cancel_aligned aligned address off
  | doTimer now =>
      simp only [step] at taken
      split at taken
      · cases taken
      · cases taken
        exact TimerQueue.doTimer_aligned aligned now

/-- While only one-shot timers and timers without an interval are added, every timer that
is due runs. -/
theorem fixed_run_runs_due {clock now : Int} {labels : List TimerStep} {loop : TimerLoop}
    (run : (timerMachine.restrict fun _ label => label.Fixed).Transitions (.start clock)
      labels loop) : RunsDue now loop.timers := by
  have aligned : Aligned loop.timers := by
    have empty : Aligned (TimerLoop.start clock).timers := ⟨.nil, fun _ member => by cases member⟩
    have kept (before : TimerLoop) (label : TimerStep) (after : TimerLoop)
        (holds : Aligned before.timers)
        (taken : (timerMachine.restrict fun _ label => label.Fixed).Step before label after) :
        Aligned after.timers :=
      TimerLoop.step_aligned holds taken.1 taken.2
    exact run.invariant kept empty
  have distinct : loop.Distinct :=
    run.of_restrict.invariant (fun _ _ _ holds taken => TimerLoop.step_distinct holds taken)
      ⟨.nil, List.nil_subset _⟩
  exact (TimerQueue.runsDue_iff distinct.nodup).mpr (aligned.unblocked now)

end MyBookSources.Net
