import MyBookSources.Foundation.Bytes
import MyBookSources.Foundation.Execution
import Mathlib.Data.List.Sort

/-! # The timer list

The first version of the timers keeps them in a list that is sorted by their expiration.
A check runs the expired timers at its front, moves their expirations on in place, and
sorts the list again afterwards.
-/

namespace MyBookSources.TimerV1

/-- `number` tells the timers apart, as their pointers do: it counts the timers that had
been created with this one. -/
structure Timer where
  number : Nat
  repeatedTimes : Int
  interval : Int
  expiredTime : Int
  deriving DecidableEq

namespace Timer

def create (number : Nat) (repeatedTimes interval now : Int) : Timer where
  number := number
  repeatedTimes := repeatedTimes
  interval := interval
  expiredTime := signed 64 (now + interval)

/-- The identifiers are taken from an `int`. -/
def getId (timer : Timer) : Int := int32 timer.number

def isExpired (timer : Timer) (now : Int) : Bool := timer.expiredTime ≤ now

def run (timer : Timer) : Timer :=
  { timer with
    repeatedTimes :=
      if 1 ≤ timer.repeatedTimes then timer.repeatedTimes - 1 else timer.repeatedTimes
    expiredTime := signed 64 (timer.expiredTime + timer.interval) }

@[simp] theorem run_number (timer : Timer) : timer.run.number = timer.number := rfl

end Timer

/-- `TimerCompare`, as the order in which it leaves a sorted list. -/
def TimerCompare (left right : Timer) : Prop := left.expiredTime ≤ right.expiredTime

instance : DecidableRel TimerCompare := fun left right =>
  inferInstanceAs (Decidable (left.expiredTime ≤ right.expiredTime))

instance : IsTrans Timer TimerCompare := ⟨fun _ _ _ => Int.le_trans⟩

instance : Std.Total TimerCompare := ⟨fun left right =>
  Int.le_total left.expiredTime right.expiredTime⟩

/-- The timers and `Timer::s_initialId`, how many have been created. -/
structure TimerManager where
  timers : List Timer
  created : Nat
  deriving DecidableEq

/-- The clock as the `isExpired` calls of one check read it, in their order. -/
structure Clock where
  reading : Nat → Int
  ordered : ∀ earlier later, earlier ≤ later → reading earlier ≤ reading later

/-- A call of a timer's callback: the timer as it was, and what its `isExpired` had read. -/
structure Running where
  timer : Timer
  reading : Int
  deriving DecidableEq

structure Checked where
  ran : List Running
  timers : List Timer
  adjusted : Bool
  deriving DecidableEq

namespace TimerManager

def empty : TimerManager := ⟨[], 0⟩

def addTimer (manager : TimerManager) (repeatedCount interval now : Int) :
    Int × TimerManager :=
  let timer := Timer.create (manager.created + 1) repeatedCount interval now
  (timer.getId,
    { timers := (manager.timers ++ [timer]).insertionSort TimerCompare
      created := manager.created + 1 })

def removeTimer (manager : TimerManager) (timerId : Int) : Bool × TimerManager :=
  (manager.timers.any fun timer => timer.getId == timerId,
    { manager with timers := manager.timers.eraseP fun timer => timer.getId == timerId })

/-- The loop of `checkAndHandleTimers` over the timers that are left, when `index` calls
of `isExpired` have been made. -/
def checkLoop (reading : Nat → Int) (index : Nat) : List Timer → Checked
  | [] => ⟨[], [], false⟩
  | timer :: timers =>
      if timer.isExpired (reading index) then
        let rest := checkLoop reading (index + 1) timers
        let running := ⟨timer, reading index⟩ :: rest.ran
        if timer.run.repeatedTimes = 0 then ⟨running, rest.timers, rest.adjusted⟩
        else ⟨running, timer.run :: rest.timers, true⟩
      else ⟨[], timer :: timers, false⟩

def checkAndHandleTimers (manager : TimerManager) (clock : Clock) :
    List Running × TimerManager :=
  let checked := checkLoop clock.reading 0 manager.timers
  (checked.ran,
    { manager with
      timers :=
        if checked.adjusted then checked.timers.insertionSort TimerCompare
        else checked.timers })

/-- Timers that expire at the same time keep their order, and one that runs for the last
time leaves the list. -/
example : (checkLoop (fun _ => 5) 0 [⟨1, 1, 10, 3⟩, ⟨2, -1, 10, 4⟩, ⟨3, 1, 10, 6⟩]).timers =
    [⟨2, -1, 10, 14⟩, ⟨3, 1, 10, 6⟩] := by decide

end TimerManager

/-- The manager, the timers as they were created, and the callbacks that ran so far. -/
structure TimerHistory where
  manager : TimerManager
  added : List Timer
  ran : List Running

inductive TimerCall
  | addTimer (repeatedCount interval now : Int)
  | removeTimer (timerId : Int)
  | checkAndHandleTimers (clock : Clock)

namespace TimerHistory

def start : TimerHistory := ⟨.empty, [], []⟩

/-- What the clock shows from one call to the next is left open. -/
def step (history : TimerHistory) : TimerCall → TimerHistory
  | .addTimer repeatedCount interval now =>
      { history with
        manager := (history.manager.addTimer repeatedCount interval now).2
        added := history.added ++
          [Timer.create (history.manager.created + 1) repeatedCount interval now] }
  | .removeTimer timerId =>
      { history with manager := (history.manager.removeTimer timerId).2 }
  | .checkAndHandleTimers clock =>
      let checked := history.manager.checkAndHandleTimers clock
      { history with manager := checked.2, ran := history.ran ++ checked.1 }

def runs (history : TimerHistory) (number : Nat) : Nat :=
  (history.ran.map fun running => running.timer.number).count number

end TimerHistory

def timerMachine : Machine TimerHistory TimerCall := .ofFunction TimerHistory.step

/-! ## One check -/

namespace TimerManager

def keeps (timer : Timer) : Bool := timer.repeatedTimes ≠ 0

/-- The loop has run `count` timers from the front and stopped before the next one. -/
structure Visits (reading : Nat → Int) (index : Nat) (timers : List Timer) (count : Nat)
    (checked : Checked) : Prop where
  ran : checked.ran.map Running.timer = timers.take count
  expired : ∀ running ∈ checked.ran, running.timer.isExpired running.reading = true
  left : checked.timers = ((timers.take count).map Timer.run).filter keeps ++ timers.drop count
  untouched : checked.adjusted = false → checked.timers = timers.drop count
  stopped : ∀ timer ∈ (timers.drop count).head?, timer.isExpired (reading (index + count)) = false

theorem checkLoop_visits (reading : Nat → Int) (index : Nat) (timers : List Timer) :
    ∃ count, Visits reading index timers count (checkLoop reading index timers) := by
  induction timers generalizing index with
  | nil =>
      refine ⟨0, rfl, ?_, rfl, fun _ => rfl, ?_⟩
      · intro running member
        cases member
      · intro timer found
        cases found
  | cons timer timers induction =>
      rw [checkLoop]
      by_cases expired : timer.isExpired (reading index) = true
      · rw [if_pos expired]
        rcases induction (index + 1) with ⟨count, visits⟩
        apply Exists.intro (count + 1)
        have stopped : ∀ next ∈ (timers.drop count).head?,
            next.isExpired (reading (index + (count + 1))) = false := by
          intro next found
          have later := visits.stopped next found
          rwa [Nat.add_assoc, Nat.add_comm 1] at later
        have expiredAll : ∀ running ∈
            (⟨timer, reading index⟩ :: (checkLoop reading (index + 1) timers).ran : List Running),
            running.timer.isExpired running.reading = true := by
          intro running member
          rcases List.mem_cons.mp member with rfl | member
          · exact expired
          · exact visits.expired running member
        by_cases last : timer.run.repeatedTimes = 0
        · have dropped : keeps timer.run = false := by simp [keeps, last]
          simp only [if_pos last]
          constructor
          · simp [visits.ran]
          · exact expiredAll
          · simp [visits.left, dropped]
          · exact visits.untouched
          · exact stopped
        · have kept : keeps timer.run = true := by simp [keeps, last]
          simp only [if_neg last]
          constructor
          · simp [visits.ran]
          · exact expiredAll
          · simp [visits.left, kept]
          · intro adjusted
            cases adjusted
          · exact stopped
      · rw [if_neg expired]
        refine ⟨0, rfl, ?_, rfl, fun _ => rfl, ?_⟩
        · intro running member
          cases member
        · intro next found
          cases found
          exact Bool.not_eq_true _ ▸ expired

/-- A check runs the timers in front that are expired; all that were expired at its start
are among them. -/
theorem checkAndHandleTimers_visits (manager : TimerManager) (clock : Clock)
    (sorted : manager.timers.Pairwise TimerCompare) :
    ∃ count, Visits clock.reading 0 manager.timers count
        (checkLoop clock.reading 0 manager.timers) ∧
      (∀ timer ∈ manager.timers.drop count, timer.isExpired (clock.reading 0) = false) ∧
      (manager.checkAndHandleTimers clock).2.timers.Pairwise TimerCompare ∧
      (manager.checkAndHandleTimers clock).2.timers.Perm
        (((manager.timers.take count).map Timer.run).filter keeps ++
          manager.timers.drop count) := by
  rcases checkLoop_visits clock.reading 0 manager.timers with ⟨count, visits⟩
  have sortedRest := sorted.sublist (List.drop_sublist count manager.timers)
  refine ⟨count, visits, ?_, ?_⟩
  · intro timer member
    have stopped := visits.stopped
    have later := clock.ordered _ _ (Nat.zero_le (0 + count))
    cases rest : manager.timers.drop count with
    | nil =>
        rw [rest] at member
        cases member
    | cons first others =>
        rw [rest] at member stopped sortedRest
        have waiting := stopped first rfl
        have behind : first.expiredTime ≤ timer.expiredTime := by
          rcases List.mem_cons.mp member with rfl | member
          · exact Int.le_refl _
          · exact (List.pairwise_cons.mp sortedRest).1 timer member
        simp only [Timer.isExpired, decide_eq_false_iff_not] at waiting ⊢
        omega
  · rw [← visits.left]
    simp only [checkAndHandleTimers]
    cases adjusted : (checkLoop clock.reading 0 manager.timers).adjusted with
    | true =>
        rw [if_pos rfl]
        exact ⟨List.pairwise_insertionSort _ _, List.perm_insertionSort _ _⟩
    | false =>
        rw [if_neg (by simp), visits.untouched adjusted]
        exact ⟨sortedRest, List.Perm.refl _⟩

theorem Visits.numbers {reading : Nat → Int} {index count : Nat} {timers : List Timer}
    {checked : Checked} (visits : Visits reading index timers count checked) :
    (checked.ran.map fun running => running.timer.number) =
      (timers.map Timer.number).take count := by
  rw [← List.map_take, ← visits.ran, List.map_map]
  rfl

end TimerManager

/-! ## Every history -/

namespace TimerHistory

/-- The list is sorted, its timers are different ones, and a timer that was to run a number
of times has run as often as its count has gone down. -/
structure Counted (history : TimerHistory) : Prop where
  sorted : history.manager.timers.Pairwise TimerCompare
  distinct : (history.manager.timers.map Timer.number).Nodup
  created : ∀ timer ∈ history.manager.timers, timer.number ≤ history.manager.created
  added : ∀ timer ∈ history.added, timer.number ≤ history.manager.created
  ran : ∀ running ∈ history.ran, running.timer.number ≤ history.manager.created
  bounded : ∀ added ∈ history.added, 1 ≤ added.repeatedTimes →
    (history.runs added.number : Int) ≤ added.repeatedTimes
  remaining : ∀ added ∈ history.added, 1 ≤ added.repeatedTimes →
    ∀ timer ∈ history.manager.timers, timer.number = added.number →
      1 ≤ timer.repeatedTimes ∧
        timer.repeatedTimes + history.runs added.number = added.repeatedTimes

theorem start_counted : start.Counted where
  sorted := .nil
  distinct := .nil
  created _ member := by cases member
  added _ member := by cases member
  ran _ member := by cases member
  bounded _ member := by cases member
  remaining _ member := by cases member

theorem runs_of_new {history : TimerHistory} (counted : history.Counted) :
    history.runs (history.manager.created + 1) = 0 := by
  rw [runs, List.count_eq_zero]
  intro member
  rcases List.mem_map.mp member with ⟨running, ranMember, same⟩
  have before := counted.ran running ranMember
  omega

theorem Counted.addTimer {history : TimerHistory} (counted : history.Counted)
    (repeatedCount interval now : Int) :
    (history.step (.addTimer repeatedCount interval now)).Counted := by
  have perm : (history.step (.addTimer repeatedCount interval now)).manager.timers.Perm
      (Timer.create (history.manager.created + 1) repeatedCount interval now ::
        history.manager.timers) :=
    (List.perm_insertionSort _ _).trans (List.perm_append_singleton _ _)
  have fresh : ∀ timer ∈ history.manager.timers,
      timer.number ≠ history.manager.created + 1 := by
    intro timer member same
    have before := counted.created timer member
    omega
  have none := runs_of_new counted
  constructor
  · exact List.pairwise_insertionSort _ _
  · rw [(perm.map Timer.number).nodup_iff, List.map_cons, List.nodup_cons]
    constructor
    · intro member
      rcases List.mem_map.mp member with ⟨timer, timerMember, same⟩
      exact fresh timer timerMember same
    · exact counted.distinct
  · intro timer member
    rcases List.mem_cons.mp (perm.mem_iff.mp member) with rfl | member
    · exact Nat.le_refl _
    · exact Nat.le_succ_of_le (counted.created timer member)
  · intro timer member
    rcases List.mem_append.mp member with member | member
    · exact Nat.le_succ_of_le (counted.added timer member)
    · rw [List.mem_singleton.mp member]
      exact Nat.le_refl _
  · intro running member
    exact Nat.le_succ_of_le (counted.ran running member)
  · intro added member positive
    rcases List.mem_append.mp member with member | member
    · exact counted.bounded added member positive
    · rw [List.mem_singleton.mp member] at positive ⊢
      change (history.runs (history.manager.created + 1) : Int) ≤ _
      rw [none]
      exact Int.le_trans (by decide) positive
  · intro added member positive timer timerMember same
    rcases List.mem_append.mp member with member | member
    · rcases List.mem_cons.mp (perm.mem_iff.mp timerMember) with rfl | timerMember
      · have before := counted.added added member
        rw [← same] at before
        exact absurd before (Nat.not_succ_le_self _)
      · exact counted.remaining added member positive timer timerMember same
    · rw [List.mem_singleton.mp member] at positive same ⊢
      rcases List.mem_cons.mp (perm.mem_iff.mp timerMember) with rfl | timerMember
      · change 1 ≤ repeatedCount ∧
          repeatedCount + (history.runs (history.manager.created + 1) : Int) = repeatedCount
        rw [none]
        exact ⟨positive, Int.add_zero _⟩
      · exact absurd same (fresh timer timerMember)

theorem Counted.removeTimer {history : TimerHistory} (counted : history.Counted)
    (timerId : Int) : (history.step (.removeTimer timerId)).Counted := by
  have fewer : (history.step (.removeTimer timerId)).manager.timers.Sublist
      history.manager.timers := List.eraseP_sublist
  constructor
  · exact counted.sorted.sublist fewer
  · exact counted.distinct.sublist (fewer.map Timer.number)
  · exact fun timer member => counted.created timer (fewer.subset member)
  · exact counted.added
  · exact counted.ran
  · exact counted.bounded
  · exact fun added member positive timer timerMember =>
      counted.remaining added member positive timer (fewer.subset timerMember)

section Check

variable {history : TimerHistory} {clock : Clock} {count : Nat}

theorem left_by_check
    (perm : (history.manager.checkAndHandleTimers clock).2.timers.Perm
      (((history.manager.timers.take count).map Timer.run).filter TimerManager.keeps ++
        history.manager.timers.drop count))
    {timer : Timer} (member : timer ∈ (history.manager.checkAndHandleTimers clock).2.timers) :
    (∃ before ∈ history.manager.timers.take count, timer = before.run ∧
      timer.repeatedTimes ≠ 0) ∨ timer ∈ history.manager.timers.drop count := by
  rcases List.mem_append.mp (perm.mem_iff.mp member) with member | behind
  · rcases List.mem_filter.mp member with ⟨member, kept⟩
    rcases List.mem_map.mp member with ⟨before, beforeMember, rfl⟩
    exact .inl ⟨before, beforeMember, rfl, by simpa [TimerManager.keeps] using kept⟩
  · exact .inr behind

theorem Counted.front_apart_behind (counted : history.Counted) (count : Nat) :
    ((history.manager.timers.take count).map Timer.number ++
      (history.manager.timers.drop count).map Timer.number).Nodup := by
  rw [← List.map_append, List.take_append_drop]
  exact counted.distinct

theorem Counted.distinct_after_check (counted : history.Counted)
    (perm : (history.manager.checkAndHandleTimers clock).2.timers.Perm
      (((history.manager.timers.take count).map Timer.run).filter TimerManager.keeps ++
        history.manager.timers.drop count)) :
    ((history.manager.checkAndHandleTimers clock).2.timers.map Timer.number).Nodup := by
  rw [(perm.map Timer.number).nodup_iff, List.map_append]
  have distinct := counted.front_apart_behind count
  have same : (history.manager.timers.take count).map Timer.number =
      ((history.manager.timers.take count).map Timer.run).map Timer.number := by
    rw [List.map_map]
    rfl
  rw [same] at distinct
  have fewer : ((((history.manager.timers.take count).map Timer.run).filter
      TimerManager.keeps).map Timer.number).Sublist
        (((history.manager.timers.take count).map Timer.run).map Timer.number) :=
    List.filter_sublist.map _
  exact distinct.sublist (fewer.append_right _)

variable (visits : TimerManager.Visits clock.reading 0 history.manager.timers count
  (TimerManager.checkLoop clock.reading 0 history.manager.timers))

include visits

theorem runs_after_check (number : Nat) :
    (history.step (.checkAndHandleTimers clock)).runs number = history.runs number +
      ((history.manager.timers.take count).map Timer.number).count number := by
  simp only [runs, step, List.map_append, List.count_append]
  rw [List.map_take, ← visits.numbers]
  rfl

theorem Counted.runs_of_front (counted : history.Counted) {timer : Timer}
    (front : timer ∈ history.manager.timers.take count) :
    (history.step (.checkAndHandleTimers clock)).runs timer.number =
      history.runs timer.number + 1 := by
  have distinct := (List.nodup_append.mp (counted.front_apart_behind count)).1
  rw [runs_after_check visits,
    List.count_eq_one_of_mem distinct (List.mem_map_of_mem front)]

theorem runs_of_other {number : Nat}
    (other : number ∉ (history.manager.timers.take count).map Timer.number) :
    (history.step (.checkAndHandleTimers clock)).runs number = history.runs number := by
  rw [runs_after_check visits, List.count_eq_zero_of_not_mem other, Nat.add_zero]

theorem Counted.bounded_after_check (counted : history.Counted) {added : Timer}
    (member : added ∈ history.added) (positive : 1 ≤ added.repeatedTimes) :
    ((history.step (.checkAndHandleTimers clock)).runs added.number : Int) ≤
      added.repeatedTimes := by
  by_cases ran : added.number ∈ (history.manager.timers.take count).map Timer.number
  · rcases List.mem_map.mp ran with ⟨timer, front, same⟩
    have remaining := counted.remaining added member positive timer
      (List.mem_of_mem_take front) same
    have more := counted.runs_of_front visits front
    rw [same] at more
    rw [more]
    omega
  · rw [runs_of_other visits ran]
    exact counted.bounded added member positive

theorem Counted.remaining_after_check (counted : history.Counted)
    (perm : (history.manager.checkAndHandleTimers clock).2.timers.Perm
      (((history.manager.timers.take count).map Timer.run).filter TimerManager.keeps ++
        history.manager.timers.drop count))
    {added timer : Timer} (member : added ∈ history.added) (positive : 1 ≤ added.repeatedTimes)
    (timerMember : timer ∈ (history.manager.checkAndHandleTimers clock).2.timers)
    (same : timer.number = added.number) :
    1 ≤ timer.repeatedTimes ∧
      timer.repeatedTimes + (history.step (.checkAndHandleTimers clock)).runs added.number =
        added.repeatedTimes := by
  rcases left_by_check perm timerMember with ⟨before, front, rfl, kept⟩ | behind
  · have remaining := counted.remaining added member positive before
      (List.mem_of_mem_take front) same
    have more := counted.runs_of_front visits front
    rw [← same, Timer.run_number, more]
    rw [← same, Timer.run_number] at remaining
    simp only [Timer.run, if_pos remaining.1] at kept ⊢
    omega
  · have other : added.number ∉ (history.manager.timers.take count).map Timer.number := by
      intro ran
      exact (List.nodup_append.mp (counted.front_apart_behind count)).2.2 _ ran _
        (List.mem_map_of_mem behind) same.symm
    rw [runs_of_other visits other]
    exact counted.remaining added member positive timer (List.mem_of_mem_drop behind) same

end Check

theorem Counted.checkAndHandleTimers {history : TimerHistory} (counted : history.Counted)
    (clock : Clock) : (history.step (.checkAndHandleTimers clock)).Counted := by
  rcases history.manager.checkAndHandleTimers_visits clock counted.sorted with
    ⟨count, visits, _, sorted, perm⟩
  constructor
  · exact sorted
  · exact counted.distinct_after_check perm
  · intro timer member
    rcases left_by_check perm member with ⟨before, front, rfl, _⟩ | behind
    · exact counted.created before (List.mem_of_mem_take front)
    · exact counted.created timer (List.mem_of_mem_drop behind)
  · exact counted.added
  · intro running member
    rcases List.mem_append.mp member with member | member
    · exact counted.ran running member
    · have front : running.timer ∈ history.manager.timers.take count := by
        rw [← visits.ran]
        exact List.mem_map_of_mem member
      exact counted.created _ (List.mem_of_mem_take front)
  · intro added member positive
    exact counted.bounded_after_check visits member positive
  · intro added member positive timer timerMember same
    exact counted.remaining_after_check visits perm member positive timerMember same

theorem step_counted {before after : TimerHistory} {call : TimerCall}
    (counted : before.Counted) (taken : timerMachine.Step before call after) :
    after.Counted := by
  cases taken
  cases call with
  | addTimer repeatedCount interval now => exact counted.addTimer repeatedCount interval now
  | removeTimer timerId => exact counted.removeTimer timerId
  | checkAndHandleTimers clock => exact counted.checkAndHandleTimers clock

end TimerHistory

end MyBookSources.TimerV1
