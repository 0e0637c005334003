import MyBookSources.Net.TimerQueue
import Mathlib.Algebra.GroupWithZero.Nat
import Mathlib.Data.List.Induction

/-! # The runs of one timer

A timer that is inserted once, with a count of its runs, in a queue with any other timers. What
the steps of the queue do to it is told from its own entry alone.
-/

namespace MyBookSources.Net

open Machine

namespace TimerStep

def Adds (address : Nat) : TimerStep → Prop
  | .addTimer _ other _ _ _ => other = address
  | _ => False

def removes (address : Nat) : TimerStep → Bool
  | .removeTimer other => other == address
  | _ => false

/-- Whether the timer is canceled afterwards, if it was as given before. -/
def cancels (address : Nat) (canceled : Bool) : TimerStep → Bool
  | .cancel other off => if other = address then off else canceled
  | _ => canceled

end TimerStep

/-- What the last `cancel` of the timer has said. -/
def canceledBy (address : Nat) (labels : List TimerStep) : Bool :=
  labels.foldl (fun canceled label => label.cancels address canceled) false

def removedBy (address : Nat) (labels : List TimerStep) : Bool :=
  labels.any fun label => label.removes address

namespace TimerQueue

def step (timers : TimerList) : TimerStep → TimerList × List Nat
  | .addTimer moved address when interval repeatCount =>
      (addTimer timers moved address when interval repeatCount, [])
  | .removeTimer address => (removeTimer timers address, [])
  | .cancel address off => (cancel timers address off, [])
  | .doTimer now => ((doTimer now timers).2, (doTimer now timers).1)

theorem timers_step {before after : TimerLoop} {label : TimerStep}
    (taken : before.step label = some after) : after.timers = (step before.timers label).1 := by
  cases label with
  | addTimer moved address when interval repeatCount =>
      rw [TimerLoop.step] at taken
      split at taken
      · cases taken
      · cases taken
        rfl
  | removeTimer address =>
      cases taken
      rfl
  | cancel address off =>
      cases taken
      rfl
  | doTimer now =>
      rw [TimerLoop.step] at taken
      split at taken
      · cases taken
      · cases taken
        rfl

def runsAt (address : Nat) (timers : TimerList) (labels : List TimerStep) : List Nat :=
  (runOutputs step timers labels).2.map (List.count address)

/-! ## The entries of one timer -/

def own (address : Nat) (timers : TimerList) : TimerList :=
  timers.filter fun entry => entry.timer.address == address

theorem own_cons (address : Nat) (entry : Entry) (entries : TimerList) :
    own address (entry :: entries) =
      if entry.timer.address = address then entry :: own address entries
      else own address entries := by
  rw [own, List.filter_cons]
  simp only [beq_iff_eq]
  rfl

theorem own_eq_nil_iff {address : Nat} {timers : TimerList} :
    own address timers = [] ↔ address ∉ addresses timers := by
  simp [own, addresses, List.filter_eq_nil_iff]

theorem own_insert_other {address : Nat} {timer : Timer} (other : timer.address ≠ address)
    (timers : TimerList) : own address (insert timers timer) = own address timers := by
  induction timers with
  | nil => simp [insert, own, other]
  | cons entry entries induction =>
      rw [insert, List.orderedInsert_cons]
      split
      · rw [own_cons, if_neg other]
      · rw [own_cons, own_cons]
        exact congrArg (fun rest => if entry.timer.address = address then entry :: rest else rest)
          induction

theorem own_insert_fresh {timers : TimerList} {timer : Timer}
    (fresh : own timer.address timers = []) :
    own timer.address (insert timers timer) = [⟨timer.expiration, timer⟩] := by
  induction timers with
  | nil => simp [insert, own]
  | cons entry entries induction =>
      rw [own_cons] at fresh
      split at fresh
      · cases fresh
      · next other =>
        rw [insert, List.orderedInsert_cons]
        split
        · rw [own_cons, if_pos rfl, own_cons, if_neg other, fresh]
        · rw [own_cons, if_neg other]
          exact induction fresh

theorem own_removeTimer (address other : Nat) (timers : TimerList) :
    own address (removeTimer timers other) = removeTimer (own address timers) other := by
  induction timers with
  | nil => rfl
  | cons entry entries induction =>
      by_cases removed : entry.timer.address = other
      · rw [removeTimer, List.eraseP_cons_of_pos (by simpa using removed), own_cons]
        split
        · rw [removeTimer, List.eraseP_cons_of_pos (by simpa using removed)]
        · next different =>
          rw [removeTimer, List.eraseP_of_forall_not]
          intro later member
          have same : later.timer.address = address := by
            simpa using (List.mem_filter.mp member).2
          rw [same, ← removed]
          simpa using Ne.symm different
      · rw [removeTimer, List.eraseP_cons_of_neg (by simpa using removed), own_cons, own_cons]
        split
        · rw [removeTimer, List.eraseP_cons_of_neg (by simpa using removed)]
          exact congrArg (entry :: ·) induction
        · exact induction

theorem cancel_of_ne {address other : Nat} (different : other ≠ address) (off : Bool)
    {timers : TimerList} (same : ∀ entry ∈ timers, entry.timer.address = address) :
    cancel timers other off = timers := by
  induction timers with
  | nil => rfl
  | cons entry entries induction =>
      rcases List.forall_mem_cons.mp same with ⟨head, rest⟩
      rw [cancel, if_neg (by rw [head]; exact Ne.symm different), induction rest]

theorem own_cancel (address other : Nat) (off : Bool) (timers : TimerList) :
    own address (cancel timers other off) = cancel (own address timers) other off := by
  induction timers with
  | nil => rfl
  | cons entry entries induction =>
      rw [cancel]
      split
      · next canceled =>
        rw [own_cons, own_cons]
        split
        · next same =>
          have same : entry.timer.address = address := same
          rw [if_pos same, cancel, if_pos canceled]
        · next different =>
          have different : entry.timer.address ≠ address := different
          rw [if_neg different]
          rw [canceled] at different
          symm
          apply cancel_of_ne different
          intro later member
          simpa using (List.mem_filter.mp member).2
      · next kept =>
        rw [own_cons, own_cons]
        split
        · rw [cancel, if_neg kept, induction]
        · exact induction

theorem doTimer_own (now : Int) {address : Nat} {timers : TimerList}
    (single : (own address timers).length ≤ 1) :
    (own address (doTimer now timers).2 = own address timers ∧
        (doTimer now timers).1.count address = 0) ∨
      ∃ entry, own address timers = [entry] ∧ entry.timer.expiration ≤ now ∧
        (doTimer now timers).1.count address = (if entry.timer.run.1 then 1 else 0) ∧
        own address (doTimer now timers).2 =
          if entry.timer.run.2.repeatCount = 0 then []
          else [{ entry with timer := entry.timer.run.2 }] := by
  induction timers with
  | nil => exact .inl ⟨rfl, rfl⟩
  | cons entry entries induction =>
      by_cases expired : entry.timer.expiration ≤ now
      · rw [doTimer, if_pos expired]
        dsimp only
        by_cases same : entry.timer.address = address
        · rw [own_cons, if_pos same] at single ⊢
          have alone : own address entries = [] := by
            rw [List.length_cons] at single
            exact List.length_eq_zero_iff.mp (by omega)
          rw [alone] at induction ⊢
          rcases induction (Nat.zero_le _) with ⟨rest, none⟩ | ⟨_, impossible, _⟩
          · refine .inr ⟨entry, rfl, expired, ?_, ?_⟩
            · split
              · rw [List.count_cons, none, same]
                simp
              · exact none
            · split
              · exact rest
              · rw [own_cons, if_pos (by simpa using same), rest]
          · cases impossible
        · rw [own_cons, if_neg same] at single ⊢
          have ran : (if entry.timer.run.1 = true then
              entry.timer.address :: (doTimer now entries).1 else (doTimer now entries).1).count
              address = (doTimer now entries).1.count address := by
            split
            · rw [List.count_cons_of_ne same]
            · rfl
          have left : own address (if entry.timer.run.2.repeatCount = 0 then (doTimer now entries).2
              else { entry with timer := entry.timer.run.2 } :: (doTimer now entries).2) =
              own address (doTimer now entries).2 := by
            split
            · rfl
            · rw [own_cons, if_neg (by simpa using same)]
          rw [ran, left]
          exact induction single
      · rw [doTimer, if_neg expired]
        exact .inl ⟨rfl, rfl⟩

/-! ## A timer with a count -/

/-- The entry of a timer for `count` runs, after some of them. -/
def scheduled (address : Nat) (when interval : Int) (count runs : Nat) (canceled : Bool) : Entry :=
  ⟨when, ⟨address, when + runs * interval, interval, count - runs, canceled⟩⟩

theorem run_scheduled {address : Nat} {when interval : Int} {count runs : Nat}
    (more : runs < count) (canceled : Bool) :
    let timer := (scheduled address when interval count runs canceled).timer
    timer.run.1 = !canceled ∧
      if timer.run.2.repeatCount = 0 then runs + timer.run.1.toNat = count
      else runs + timer.run.1.toNat < count ∧
        timer.run.2 =
          (scheduled address when interval count (runs + timer.run.1.toNat) canceled).timer := by
  cases canceled with
  | true =>
      have some : (count : Int) - runs ≠ 0 := by omega
      simp [Timer.run, scheduled, some, more]
  | false =>
      have counted : (count : Int) - runs ≠ -1 := by omega
      by_cases last : (count : Int) - runs - 1 = 0
      · simp [Timer.run, scheduled, counted, last]
        omega
      · have next : when + runs * interval + interval = when + (runs + 1) * interval := by
          rw [Int.add_mul, Int.one_mul, Int.add_assoc]
        have left : (count : Int) - runs - 1 = count - (runs + 1) := by omega
        have more : (count : Int) - (runs + 1) ≠ 0 := by omega
        simp [Timer.run, scheduled, counted, next, left, more]
        omega

section

variable {address : Nat} {when interval : Int} {count : Nat}

/-- The timer's entry stands in the queue with what is left of its count, until the last run or
its removal. -/
def Stands (address : Nat) (when interval : Int) (count runs : Nat) (canceled removed : Bool)
    (timers : TimerList) : Prop :=
  runs ≤ count ∧ own address timers =
    if runs < count ∧ removed = false then [scheduled address when interval count runs canceled]
    else []

theorem Stands.single {runs : Nat} {canceled removed : Bool} {timers : TimerList}
    (stands : Stands address when interval count runs canceled removed timers) :
    (own address timers).length ≤ 1 := by
  rw [stands.2]
  split
  · exact Nat.le_refl _
  · exact Nat.zero_le _

theorem Stands.doTimer {runs : Nat} {canceled removed : Bool} {timers : TimerList}
    (stands : Stands address when interval count runs canceled removed timers) (now : Int) :
    let ran := (TimerQueue.doTimer now timers).1.count address
    Stands address when interval count (runs + ran) canceled removed
        (TimerQueue.doTimer now timers).2 ∧
      ran ≤ 1 ∧ (0 < ran → canceled = false ∧ when + runs * interval ≤ now) := by
  intro ran
  rcases doTimer_own now stands.single with ⟨same, none⟩ | ⟨entry, alone, expired, some, after⟩
  · have none : ran = 0 := none
    rw [none]
    refine ⟨⟨stands.1, same.trans stands.2⟩, Nat.zero_le _, ?_⟩
    intro positive
    exact absurd positive (Nat.lt_irrefl 0)
  · have standing := stands.2
    rw [alone] at standing
    split at standing
    · next more =>
      cases standing
      rcases run_scheduled more.1 canceled with ⟨live, next⟩
      have ran_eq : ran = (!canceled).toNat := by
        rw [show ran = _ from some, live]
        cases canceled <;> rfl
      rw [live, ← ran_eq] at next
      rw [Stands, after]
      refine ⟨?_, ?_, ?_⟩
      · split at next
        · next last =>
          rw [if_pos last, if_neg (by omega)]
          exact ⟨by omega, rfl⟩
        · next goesOn =>
          rw [if_neg goesOn, if_pos ⟨next.1, more.2⟩, next.2]
          exact ⟨by omega, rfl⟩
      · rw [ran_eq]
        exact Bool.toNat_le _
      · intro positive
        rw [ran_eq] at positive
        cases canceled with
        | true => exact absurd positive (Nat.lt_irrefl 0)
        | false => exact ⟨rfl, expired⟩
    · cases standing

theorem Stands.insert {runs : Nat} {canceled removed : Bool} {timers : TimerList}
    (stands : Stands address when interval count runs canceled removed timers) {timer : Timer}
    (other : timer.address ≠ address) :
    Stands address when interval count runs canceled removed (insert timers timer) := by
  rw [Stands, own_insert_other other]
  exact stands

theorem Stands.removeTimer {runs : Nat} {canceled removed : Bool} {timers : TimerList}
    (stands : Stands address when interval count runs canceled removed timers) (other : Nat) :
    Stands address when interval count runs canceled (removed || other == address)
      (removeTimer timers other) := by
  refine ⟨stands.1, ?_⟩
  rw [own_removeTimer, stands.2]
  by_cases same : other = address
  · have gone : ¬ (runs < count ∧ (removed || address == address) = false) := by simp
    rw [same, if_neg gone]
    split
    · simp [TimerQueue.removeTimer, scheduled]
    · rfl
  · rw [beq_false_of_ne same, Bool.or_false]
    split
    · simp [TimerQueue.removeTimer, scheduled, Ne.symm same]
    · rfl

theorem Stands.cancel {runs : Nat} {canceled removed : Bool} {timers : TimerList}
    (stands : Stands address when interval count runs canceled removed timers) (other : Nat)
    (off : Bool) :
    Stands address when interval count runs (if other = address then off else canceled) removed
      (cancel timers other off) := by
  refine ⟨stands.1, ?_⟩
  rw [own_cancel, stands.2]
  by_cases same : other = address
  · rw [same, if_pos rfl]
    split
    · simp [TimerQueue.cancel, scheduled, Timer.cancel]
    · rfl
  · rw [if_neg same]
    split
    · simp [TimerQueue.cancel, scheduled, Ne.symm same]
    · rfl

theorem Stands.step {runs : Nat} {canceled removed : Bool} {timers : TimerList}
    (stands : Stands address when interval count runs canceled removed timers)
    {label : TimerStep} (other : ¬ label.Adds address) :
    let ran := (TimerQueue.step timers label).2.count address
    Stands address when interval count (runs + ran) (label.cancels address canceled)
        (removed || label.removes address) (TimerQueue.step timers label).1 ∧ ran ≤ 1 := by
  cases label with
  | addTimer moved added first every repeatCount =>
      let timer : Timer := ⟨added, first, every, if moved then repeatCount else -1, false⟩
      have different : timer.address ≠ address := other
      refine ⟨?_, Nat.zero_le _⟩
      simp only [TimerStep.removes, Bool.or_false]
      exact stands.insert different
  | removeTimer removedAddress => exact ⟨stands.removeTimer removedAddress, Nat.zero_le _⟩
  | cancel canceledAddress off =>
      refine ⟨?_, Nat.zero_le _⟩
      simp only [TimerStep.removes, Bool.or_false]
      exact stands.cancel canceledAddress off
  | doTimer now =>
      have after := stands.doTimer now
      refine ⟨?_, after.2.1⟩
      simp only [TimerStep.removes, Bool.or_false]
      exact after.1

theorem stands_inserted {timers : TimerList} (positive : 1 ≤ count)
    (fresh : address ∉ addresses timers) :
    Stands address when interval count 0 false false
      (TimerQueue.insert timers ⟨address, when, interval, count, false⟩) := by
  refine ⟨Nat.zero_le _, ?_⟩
  have alone := @own_insert_fresh timers ⟨address, when, interval, count, false⟩
    (own_eq_nil_iff.mpr fresh)
  rw [alone, if_pos ⟨positive, rfl⟩]
  simp [scheduled]

/-- What the steps of a run do to the timer. -/
theorem stands_after {timers : TimerList} (positive : 1 ≤ count)
    (fresh : address ∉ addresses timers) {labels : List TimerStep}
    (once : ∀ label ∈ labels, ¬ label.Adds address) :
    let inserted := TimerQueue.insert timers ⟨address, when, interval, count, false⟩
    Stands address when interval count (runsAt address inserted labels).sum
        (canceledBy address labels) (removedBy address labels)
        (runOutputs TimerQueue.step inserted labels).1 ∧
      ∀ ran ∈ runsAt address inserted labels, ran ≤ 1 := by
  intro inserted
  induction labels using List.reverseRecOn with
  | nil => exact ⟨stands_inserted positive fresh, fun _ none => by cases none⟩
  | append_singleton labels label induction =>
      rw [List.forall_mem_append, List.forall_mem_singleton] at once
      rcases induction once.1 with ⟨stands, few⟩
      have runs : runsAt address inserted (labels ++ [label]) = runsAt address inserted labels ++
          [(TimerQueue.step (runOutputs TimerQueue.step inserted labels).1 label).2.count
            address] := by
        simp [runsAt, runOutputs_append, runOutputs]
      have canceled : canceledBy address (labels ++ [label]) =
          label.cancels address (canceledBy address labels) := by
        simp [canceledBy, List.foldl_append]
      have removed : removedBy address (labels ++ [label]) =
          (removedBy address labels || label.removes address) := by
        simp [removedBy, List.any_append]
      rcases stands.step once.2 with ⟨after, atMostOnce⟩
      rw [runs, canceled, removed, runOutputs_append, List.sum_append_nat, List.sum_singleton]
      refine ⟨after, ?_⟩
      rw [List.forall_mem_append, List.forall_mem_singleton]
      exact ⟨few, atMostOnce⟩

end

/-- A timer with a count runs as often at most, once in a round and not while it is canceled; its
runs keep to its interval, and it is in the queue up to its last run or its removal. -/
theorem timer_runs {timers : TimerList} {address : Nat} {when interval : Int} {count : Nat}
    (positive : 1 ≤ count) (fresh : address ∉ addresses timers) {labels : List TimerStep}
    (once : ∀ label ∈ labels, ¬ label.Adds address) :
    let inserted := insert timers ⟨address, when, interval, count, false⟩
    let last := (runOutputs step inserted labels).1
    let runs := (runsAt address inserted labels).sum
    runs ≤ count ∧ (∀ ran ∈ runsAt address inserted labels, ran ≤ 1) ∧
      (address ∈ addresses last ↔ runs < count ∧ removedBy address labels = false) ∧
      ∀ now, address ∈ (doTimer now last).1 →
        canceledBy address labels = false ∧ when + runs * interval ≤ now := by
  intro inserted last runs
  have after := @stands_after address when interval count timers positive fresh labels once
  rcases after with ⟨stands, few⟩
  refine ⟨stands.1, few, ?_, ?_⟩
  · have standing : own address last = if runs < count ∧ removedBy address labels = false then _
        else [] := stands.2
    rw [← not_iff_not, ← own_eq_nil_iff, standing]
    split
    · next more => simp [more]
    · next gone => simp [gone]
  · intro now ran
    exact (stands.doTimer now).2.2 (List.count_pos_iff.mpr ran)

/-- A timer with two runs beside one that repeats, switched off between two rounds. -/
theorem timer_runs_twice :
    let inserted := insert [⟨0, ⟨8, 0, 10, -1, false⟩⟩] ⟨7, 3, 5, (2 : Nat), false⟩
    let labels := [.doTimer 4, .cancel 7 true, .doTimer 20, .cancel 7 false]
    let last := (runOutputs step inserted labels).1
    let runs := (runsAt 7 inserted labels).sum
    runs ≤ 2 ∧ (∀ ran ∈ runsAt 7 inserted labels, ran ≤ 1) ∧
      (7 ∈ addresses last ↔ runs < 2 ∧ removedBy 7 labels = false) ∧
      ∀ now, 7 ∈ (doTimer now last).1 →
        canceledBy 7 labels = false ∧ (3 : Int) + runs * 5 ≤ now :=
  timer_runs (by decide) (by decide) (by simp [TimerStep.Adds])

end TimerQueue

end MyBookSources.Net
