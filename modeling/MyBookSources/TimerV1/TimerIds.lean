import MyBookSources.TimerV1.TimerManager
import Mathlib.Logic.Function.Basic

/-! # The identifiers of timers

The constructors of all versions increment `s_initialId` and read it again for `m_id`. Each of
the two steps is atomic, and other threads take theirs in between.
-/

namespace MyBookSources.TimerV1

inductive IdStep
  | increment (thread : Nat)
  | read (thread : Nat)
  deriving DecidableEq

/-- `s_initialId`, the threads that have incremented it and have not read it yet, and `m_id` of
the timers so far. -/
structure IdCounter where
  initialId : Int
  between : Nat → Bool
  ids : List Int

namespace IdCounter

def start : IdCounter := ⟨0, fun _ => false, []⟩

/-- An `std::atomic<int>` wraps. -/
def step (counter : IdCounter) : IdStep → Option IdCounter
  | .increment thread =>
      if counter.between thread then none
      else some { counter with
        initialId := signed 32 (counter.initialId + 1)
        between := Function.update counter.between thread true }
  | .read thread =>
      if counter.between thread then some { counter with
        between := Function.update counter.between thread false
        ids := counter.ids ++ [counter.initialId] }
      else none

/-- Every interleaving of the constructors of any number of threads. -/
abbrev machine : Machine IdCounter IdStep := .ofPartial step

end IdCounter

/-! ## The steps of an interleaving -/

namespace IdStep

def increments (steps : List IdStep) : Nat :=
  steps.countP fun step => match step with
    | .increment _ => true
    | .read _ => false

@[simp] theorem increments_increment (thread : Nat) (steps : List IdStep) :
    increments (.increment thread :: steps) = increments steps + 1 :=
  List.countP_cons_of_pos rfl

@[simp] theorem increments_read (thread : Nat) (steps : List IdStep) :
    increments (.read thread :: steps) = increments steps :=
  List.countP_cons_of_neg Bool.false_ne_true

theorem increments_append (front back : List IdStep) :
    increments (front ++ back) = increments front + increments back :=
  List.countP_append

/-- Between any two reads the counter is incremented, and comes back to no value that it
had. -/
def Separated (steps : List IdStep) : Prop :=
  ∀ front first middle second back,
    steps = front ++ .read first :: (middle ++ .read second :: back) →
      ¬ 2 ^ 32 ∣ increments middle

/-- How often the counter has been incremented in front of each read. -/
def counts (count : Nat) : List IdStep → List Nat
  | [] => []
  | .increment _ :: steps => counts (count + 1) steps
  | .read _ :: steps => count :: counts count steps

theorem counts_append (count : Nat) (front back : List IdStep) :
    counts count (front ++ back) =
      counts count front ++ counts (count + increments front) back := by
  induction front generalizing count with
  | nil => rfl
  | cons step front induction =>
      cases step with
      | increment thread =>
          rw [List.cons_append, counts, counts, induction, increments_increment, Nat.add_assoc,
            Nat.add_comm 1]
      | read thread => rw [List.cons_append, counts, counts, induction, increments_read,
          List.cons_append]

theorem mem_counts {count other : Nat} {steps : List IdStep} :
    other ∈ counts count steps ↔
      ∃ middle thread back, steps = middle ++ .read thread :: back ∧
        other = count + increments middle := by
  constructor
  · intro member
    induction steps generalizing count with
    | nil => cases member
    | cons step steps induction =>
        cases step with
        | increment thread =>
            rcases induction member with ⟨middle, second, back, rfl, rfl⟩
            refine ⟨.increment thread :: middle, second, back, rfl, ?_⟩
            rw [increments_increment, Nat.add_assoc, Nat.add_comm 1]
        | read thread =>
            rcases List.mem_cons.mp member with rfl | later
            · exact ⟨[], thread, steps, rfl, rfl⟩
            · rcases induction later with ⟨middle, second, back, rfl, rfl⟩
              exact ⟨.read thread :: middle, second, back, rfl, by rw [increments_read]⟩
  · rintro ⟨middle, thread, back, rfl, rfl⟩
    rw [counts_append]
    exact List.mem_append_right _ List.mem_cons_self

theorem separated_increment {thread : Nat} {steps : List IdStep} :
    Separated (.increment thread :: steps) ↔ Separated steps := by
  constructor
  · rintro separated front first middle second back rfl
    exact separated (.increment thread :: front) first middle second back rfl
  · intro separated front first middle second back whole
    cases front with
    | nil => cases whole
    | cons step front =>
        rw [List.cons_append, List.cons.injEq] at whole
        exact separated front first middle second back whole.2

theorem separated_read {thread : Nat} {steps : List IdStep} :
    Separated (.read thread :: steps) ↔
      (∀ middle second back, steps = middle ++ .read second :: back →
        ¬ 2 ^ 32 ∣ increments middle) ∧ Separated steps := by
  constructor
  · intro separated
    constructor
    · rintro middle second back rfl
      exact separated [] thread middle second back rfl
    · rintro front first middle second back rfl
      exact separated (.read thread :: front) first middle second back rfl
  · rintro ⟨own, later⟩ front first middle second back whole
    cases front with
    | nil =>
        rw [List.nil_append, List.cons.injEq] at whole
        exact own middle second back whole.2
    | cons step front =>
        rw [List.cons_append, List.cons.injEq] at whole
        exact later front first middle second back whole.2

end IdStep

open IdStep

def idAfter (count : Nat) : Int := signed 32 count

theorem idAfter_eq_iff {earlier more : Nat} :
    idAfter earlier = idAfter (earlier + more) ↔ 2 ^ 32 ∣ more := by
  have difference : ((earlier : Int) - ((earlier + more : Nat) : Int)) = -(more : Int) := by omega
  rw [idAfter, idAfter, signed, signed, Int.bmod_eq_bmod_iff_bmod_sub_eq_zero,
    ← Int.dvd_iff_bmod_eq_zero,
    difference, Int.dvd_neg, Int.natCast_dvd_natCast]

/-- The values read are different exactly if the reads are separated. -/
theorem nodup_counts_iff (count : Nat) (steps : List IdStep) :
    ((counts count steps).map idAfter).Nodup ↔ Separated steps := by
  induction steps generalizing count with
  | nil =>
      refine iff_of_true List.nodup_nil ?_
      intro front first middle second back whole
      cases front <;> cases whole
  | cons step steps induction =>
      cases step with
      | increment thread => rw [counts, induction, separated_increment]
      | read thread =>
          rw [counts, List.map_cons, List.nodup_cons, induction, separated_read]
          refine and_congr_left fun _ => ?_
          rw [List.mem_map]
          constructor
          · rintro fresh middle second back rfl same
            exact fresh ⟨_, mem_counts.mpr ⟨middle, second, back, rfl, rfl⟩,
              (idAfter_eq_iff.mpr same).symm⟩
          · rintro apart ⟨other, member, same⟩
            rcases mem_counts.mp member with ⟨middle, second, back, rfl, rfl⟩
            exact apart middle second back rfl (idAfter_eq_iff.mp same.symm)

/-! ## The identifiers -/

namespace IdCounter

/-- The counter is the number of increments as an `int`. -/
theorem ids_of_transitions {steps : List IdStep} {counter : IdCounter}
    (transitions : machine.Transitions start steps counter) :
    counter.initialId = idAfter (increments steps) ∧
      counter.ids = (counts 0 steps).map idAfter := by
  induction transitions with
  | nil => exact ⟨rfl, rfl⟩
  | @snoc middle last steps label _ taken induction =>
      rcases induction with ⟨initialId, ids⟩
      rw [increments_append, counts_append, Nat.zero_add]
      change step middle label = some last at taken
      cases label with
      | increment thread =>
          rw [step] at taken
          split at taken
          · cases taken
          · cases taken
            refine ⟨?_, ?_⟩
            · change signed 32 (middle.initialId + 1) = _
              rw [initialId, idAfter, idAfter, signed, signed, signed, Int.bmod_add_bmod,
                increments_increment]
              rfl
            · rw [ids, counts, counts, List.append_nil]
      | read thread =>
          rw [step] at taken
          split at taken
          · cases taken
            refine ⟨?_, ?_⟩
            · rw [initialId, increments_read]
              rfl
            · rw [counts, counts, List.map_append, ← ids, List.map_singleton, ← initialId]
          · cases taken

/-- The timers of an interleaving have different identifiers exactly if the counter is
incremented between any two reads, and not by a multiple of its range. -/
theorem ids_distinct_iff {steps : List IdStep} {counter : IdCounter}
    (transitions : machine.Transitions start steps counter) :
    counter.ids.Nodup ↔ Separated steps := by
  rw [(ids_of_transitions transitions).2, nodup_counts_iff]

/-- Of two constructors one increments and reads before the other begins. -/
theorem ids_distinct_two : ∃ counter : IdCounter,
    machine.Transitions start [.increment 0, .read 0, .increment 1, .read 1] counter ∧
      counter.ids = [1, 2] ∧ Separated [.increment 0, .read 0, .increment 1, .read 1] := by
  have run : (Machine.runPartial step start
      [.increment 0, .read 0, .increment 1, .read 1]).map ids = some [1, 2] := by decide
  rcases Option.map_eq_some_iff.mp run with ⟨counter, ran, ids⟩
  have transitions := Machine.transitions_of_runPartial ran
  have distinct : counter.ids.Nodup := by
    rw [ids]
    decide
  exact ⟨counter, transitions, ids, (ids_distinct_iff transitions).mp distinct⟩

/-- Two constructors increment before either of them reads. -/
theorem two_timers_one_id : ∃ counter : IdCounter,
    machine.Transitions start [.increment 0, .increment 1, .read 0, .read 1] counter ∧
      counter.ids = [2, 2] ∧ ¬ counter.ids.Nodup := by
  have run : (Machine.runPartial step start
      [.increment 0, .increment 1, .read 0, .read 1]).map ids = some [2, 2] := by decide
  rcases Option.map_eq_some_iff.mp run with ⟨counter, ran, ids⟩
  refine ⟨counter, Machine.transitions_of_runPartial ran, ids, ?_⟩
  rw [ids]
  decide

/-! ## One constructor after the other -/

/-- The constructors of these threads, of which none begins before the one in front of it is
done. -/
def oneByOne (threads : List Nat) : List IdStep :=
  threads.flatMap fun thread => [.increment thread, .read thread]

theorem counts_oneByOne (count : Nat) (threads : List Nat) :
    counts count (oneByOne threads) = List.range' (count + 1) threads.length := by
  induction threads generalizing count with
  | nil => rfl
  | cons thread threads induction =>
      rw [List.length_cons, List.range'_succ, ← induction]
      rfl

theorem getId_eq_idAfter (timer : Timer) : timer.getId = idAfter timer.number := by
  unfold Timer.getId int32 idAfter signed
  rw [Int.bmod_def]
  omega

/-- These timers have the identifiers that the list of timers counts with. -/
theorem oneByOne_ids {threads : List Nat} {counter : IdCounter}
    (transitions : machine.Transitions start (oneByOne threads) counter)
    (repeatedTimes interval now : Int) :
    counter.ids = (List.range' 1 threads.length).map fun number =>
      (Timer.create number repeatedTimes interval now).getId := by
  rw [(ids_of_transitions transitions).2, counts_oneByOne]
  refine List.map_congr_left fun number _ => ?_
  rw [getId_eq_idAfter]
  rfl

end IdCounter

end MyBookSources.TimerV1
