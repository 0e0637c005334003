import MyBookSources.Net.TimerRuns

/-! # Callbacks that manage timers

`runInLoop` calls at once in the thread of the loop, so what a callback does with timers is done
to the set that `doTimer` goes through. Its iterator lives on as long as the entry that it
refers to is not erased.
-/

namespace MyBookSources.Net

open Machine TimerQueue

inductive TimerAction
  | addTimer (moved : Bool) (address : Nat) (when interval repeatCount : Int)
  | removeTimer (address : Nat)
  | cancel (address : Nat) (off : Bool)
  deriving DecidableEq

def TimerAction.step : TimerAction → TimerStep
  | .addTimer moved address when interval repeatCount =>
      .addTimer moved address when interval repeatCount
  | .removeTimer address => .removeTimer address
  | .cancel address off => .cancel address off

/-- What `run` does when the callback has returned. -/
def Timer.afterCallback (timer : Timer) : Timer :=
  if timer.repeatCount ≠ -1 then
    let counted := { timer with repeatCount := timer.repeatCount - 1 }
    if counted.repeatCount = 0 then counted
    else { counted with expiration := counted.expiration + counted.interval }
  else { timer with expiration := timer.expiration + timer.interval }

theorem Timer.run_eq_afterCallback (timer : Timer) :
    timer.run = if timer.canceled then (false, timer) else (true, timer.afterCallback) := by
  rw [run, afterCallback]
  split
  · rfl
  · split
    · dsimp only
      split
      · rfl
      · rfl
    · rfl

@[simp] theorem Timer.afterCallback_address (timer : Timer) :
    timer.afterCallback.address = timer.address := by
  unfold afterCallback
  split
  · dsimp only
    split
    · rfl
    · rfl
  · rfl

namespace TimerQueue

def first (timers : TimerList) : Option Nat := timers.head?.map fun entry => entry.timer.address

def next (address : Nat) (timers : TimerList) : Option Nat :=
  first (timers.dropWhile fun entry => entry.timer.address != address).tail

def lookup (address : Nat) (timers : TimerList) : Option Timer :=
  (timers.find? fun entry => entry.timer.address == address).map Entry.timer

def update (timer : Timer) (timers : TimerList) : TimerList :=
  timers.map fun entry =>
    if entry.timer.address = timer.address then { entry with timer := timer } else entry

end TimerQueue

/-- The loop, and the timer whose entry `doTimer`'s iterator refers to, if it goes through the
set. The clock is the one that `doTimer` has read. -/
structure CallbackLoop where
  loop : TimerLoop
  iterator : Option Nat
  deriving DecidableEq

inductive CallbackStep
  | act (action : TimerAction)
  | doTimer (now : Int)
  | visit (callback : List TimerAction)

namespace CallbackLoop

def perform (loop : TimerLoop) (callback : List TimerAction) : Option TimerLoop :=
  runPartial TimerLoop.step loop (callback.map TimerAction.step)

def advance (loop : TimerLoop) (timer : Timer) : CallbackLoop :=
  let timers := update timer loop.timers
  { loop := { loop with timers :=
      if timer.repeatCount = 0 then removeTimer timers timer.address else timers }
    iterator := next timer.address timers }

/-- One round of the loop in `doTimer`. It ends where the callback returns if the iterator's
entry is then erased, for the source goes on with it. -/
def visit (state : CallbackLoop) (callback : List TimerAction) : Option CallbackLoop := do
  let address ← state.iterator
  let timer ← lookup address state.loop.timers
  if timer.expiration ≤ state.loop.clock then
    if timer.canceled then if callback = [] then some (advance state.loop timer) else none
    else do
      let loop ← perform state.loop callback
      match lookup address loop.timers with
      | none => some ⟨loop, some address⟩
      | some timer => some (advance loop timer.afterCallback)
  else if callback = [] then some { state with iterator := none }
  else none

/-- A loop goes through its timers once it has started, and does nothing else up to the end. -/
def step (state : CallbackLoop) : CallbackStep → Option CallbackLoop
  | .act action =>
      if state.iterator = none then
        (state.loop.step action.step).map fun loop => ⟨loop, none⟩
      else none
  | .doTimer now =>
      if state.iterator = none ∧ state.loop.clock ≤ now then
        some ⟨{ state.loop with clock := now }, first state.loop.timers⟩
      else none
  | .visit callback => state.visit callback

/-- The entry that the iterator refers to is in the set. -/
def IteratorValid (state : CallbackLoop) : Prop :=
  ∀ address ∈ state.iterator, address ∈ addresses state.loop.timers

/-- The callback that runs does not remove its own timer. -/
def KeepsOwnTimer (state : CallbackLoop) : CallbackStep → Prop
  | .visit callback => ∀ address ∈ state.iterator, .removeTimer address ∉ callback
  | _ => True

end CallbackLoop

/-! ## The entry of the iterator -/

namespace TimerQueue

theorem lookup_eq_none_iff {address : Nat} {timers : TimerList} :
    lookup address timers = none ↔ address ∉ addresses timers := by
  simp [lookup, addresses]

theorem addresses_update (timer : Timer) (timers : TimerList) :
    addresses (update timer timers) = addresses timers := by
  rw [update, addresses, List.map_map]
  apply List.map_congr_left
  intro entry _
  simp only [Function.comp_apply]
  split
  · next same => exact same.symm
  · rfl

theorem addresses_removeTimer_eq (timers : TimerList) (address : Nat) :
    addresses (removeTimer timers address) = (addresses timers).erase address := by
  induction timers with
  | nil => rfl
  | cons entry entries induction =>
      by_cases same : entry.timer.address = address
      · rw [removeTimer, List.eraseP_cons_of_pos (by simpa using same), addresses, addresses,
          List.map_cons, same, List.erase_cons_head]
      · rw [removeTimer, List.eraseP_cons_of_neg (by simpa using same), addresses, addresses,
          List.map_cons, List.map_cons, List.erase_cons_tail (by simpa using same)]
        exact congrArg (entry.timer.address :: ·) induction

theorem next_mem {address other : Nat} {timers : TimerList} (distinct : (addresses timers).Nodup)
    (behind : next address timers = some other) : other ∈ addresses timers ∧ other ≠ address := by
  induction timers with
  | nil => cases behind
  | cons entry entries induction =>
      rcases List.nodup_cons.mp distinct with ⟨fresh, rest⟩
      by_cases same : entry.timer.address = address
      · rw [next, List.dropWhile_cons_of_neg (by simpa using same), List.tail_cons] at behind
        rcases Option.map_eq_some_iff.mp behind with ⟨later, head, rfl⟩
        have member : later.timer.address ∈ addresses entries :=
          List.mem_map_of_mem (List.mem_of_mem_head? head)
        refine ⟨List.mem_cons_of_mem _ member, ?_⟩
        rw [← same]
        exact ne_of_mem_of_not_mem member fresh
      · rw [next, List.dropWhile_cons_of_pos (by simpa using same)] at behind
        rcases induction rest behind with ⟨member, different⟩
        exact ⟨List.mem_cons_of_mem _ member, different⟩

end TimerQueue

namespace CallbackLoop

/-- A timer that was created and is gone does not come back, and one that is there goes only by
its removal. -/
theorem action_keeps {before after : TimerLoop} {action : TimerAction}
    (distinct : before.Distinct) (taken : before.step action.step = some after) {address : Nat}
    (created : address ∈ before.created) :
    address ∈ after.created ∧ (address ∈ addresses after.timers ↔
      address ∈ addresses before.timers ∧ action ≠ .removeTimer address) := by
  cases action with
  | addTimer moved added when interval repeatCount =>
      simp only [TimerAction.step, TimerLoop.step] at taken
      split at taken
      · cases taken
      · next fresh =>
        cases taken
        have different : address ≠ added := ne_of_mem_of_not_mem created fresh
        refine ⟨List.mem_cons_of_mem _ created, ?_⟩
        have inserted := (addresses_insert before.timers
          ⟨added, when, interval, if moved then repeatCount else -1, false⟩).mem_iff (a := address)
        rw [List.mem_cons] at inserted
        simpa [different, addTimer] using inserted
  | removeTimer removed =>
      cases taken
      refine ⟨created, ?_⟩
      rw [addresses_removeTimer_eq, distinct.nodup.mem_erase_iff]
      simp only [ne_eq, TimerAction.removeTimer.injEq]
      rw [and_comm, eq_comm]
  | cancel canceled off =>
      cases taken
      refine ⟨created, ?_⟩
      rw [addresses_cancel]
      simp

theorem perform_keeps {before after : TimerLoop} {callback : List TimerAction}
    (distinct : before.Distinct) (performed : perform before callback = some after) {address : Nat}
    (created : address ∈ before.created) :
    after.Distinct ∧ (address ∈ addresses after.timers ↔
      address ∈ addresses before.timers ∧ .removeTimer address ∉ callback) := by
  induction callback generalizing before with
  | nil =>
      cases performed
      simp [distinct]
  | cons action callback induction =>
      rcases Option.bind_eq_some_iff.mp performed with ⟨middle, taken, rest⟩
      have middleDistinct := TimerLoop.step_distinct distinct taken
      rcases action_keeps distinct taken created with ⟨stillCreated, kept⟩
      rcases induction middleDistinct rest stillCreated with ⟨afterDistinct, keptAfter⟩
      refine ⟨afterDistinct, ?_⟩
      rw [keptAfter, kept, List.mem_cons, not_or, and_assoc, eq_comm]

theorem advance_distinct {loop : TimerLoop} (distinct : loop.Distinct) (timer : Timer) :
    (advance loop timer).loop.Distinct := by
  apply TimerLoop.distinct_of_sublist distinct
  · rw [← addresses_update timer loop.timers, advance]
    dsimp only
    split
    · exact addresses_removeTimer _ _
    · exact List.Sublist.refl _
  · rfl

theorem advance_valid {loop : TimerLoop} (distinct : loop.Distinct) (timer : Timer) :
    (advance loop timer).IteratorValid := by
  intro other behind
  have nodup : (addresses (update timer loop.timers)).Nodup := by
    rw [addresses_update]
    exact distinct.nodup
  rcases next_mem nodup behind with ⟨member, different⟩
  rw [advance]
  dsimp only
  split
  · rw [addresses_removeTimer_eq]
    exact (List.mem_erase_of_ne different).mpr member
  · exact member

/-- What a round does to a set with different timers: if the callback removes its own timer the
iterator is left behind, and otherwise it refers to an entry again. -/
theorem visit_cases {state after : CallbackLoop} {callback : List TimerAction}
    (distinct : state.loop.Distinct) (visited : state.visit callback = some after) :
    after.loop.Distinct ∧
      (after.IteratorValid ∧ (∀ address ∈ state.iterator, .removeTimer address ∉ callback) ∨
        ¬ after.IteratorValid ∧ ∃ address ∈ state.iterator, .removeTimer address ∈ callback) := by
  rcases Option.bind_eq_some_iff.mp visited with ⟨address, iterator, visited⟩
  rcases Option.bind_eq_some_iff.mp visited with ⟨timer, found, visited⟩
  have member : address ∈ addresses state.loop.timers := by
    by_contra absent
    rw [lookup_eq_none_iff.mpr absent] at found
    cases found
  rw [iterator]
  simp only [Option.mem_some_iff, forall_eq', exists_eq_left']
  split at visited
  · split at visited
    · split at visited
      · next quiet =>
        cases visited
        rw [quiet]
        exact ⟨advance_distinct distinct _, .inl ⟨advance_valid distinct _, List.not_mem_nil⟩⟩
      · cases visited
    · rcases Option.bind_eq_some_iff.mp visited with ⟨loop, performed, visited⟩
      rcases perform_keeps distinct performed (distinct.created member) with ⟨kept, there⟩
      split at visited
      · next erased =>
        cases visited
        have gone := lookup_eq_none_iff.mp erased
        refine ⟨kept, .inr ⟨fun valid => gone (valid address rfl), ?_⟩⟩
        by_contra stays
        exact gone (there.mpr ⟨member, stays⟩)
      · next still =>
        cases visited
        refine ⟨advance_distinct kept _, .inl ⟨advance_valid kept _, ?_⟩⟩
        intro removes
        have gone := lookup_eq_none_iff.mpr fun stays => (there.mp stays).2 removes
        rw [gone] at still
        cases still
  · split at visited
    · next quiet =>
      cases visited
      rw [quiet]
      refine ⟨distinct, .inl ⟨?_, List.not_mem_nil⟩⟩
      intro other none
      cases none
    · cases visited

theorem step_keeps {state after : CallbackLoop} {label : CallbackStep}
    (distinct : state.loop.Distinct) (taken : state.step label = some after) :
    after.loop.Distinct ∧ (after.IteratorValid ↔ KeepsOwnTimer state label) := by
  cases label with
  | act action =>
      rw [step] at taken
      split at taken
      · rcases Option.map_eq_some_iff.mp taken with ⟨loop, acted, rfl⟩
        refine ⟨TimerLoop.step_distinct distinct acted, ?_⟩
        simp [IteratorValid, KeepsOwnTimer]
      · cases taken
  | doTimer now =>
      rw [step] at taken
      split at taken
      · cases taken
        refine ⟨⟨distinct.nodup, distinct.created⟩, ?_⟩
        simp only [KeepsOwnTimer, iff_true]
        intro address begin
        rcases Option.map_eq_some_iff.mp begin with ⟨entry, front, rfl⟩
        exact List.mem_map_of_mem (List.mem_of_mem_head? front)
      · cases taken
  | visit callback =>
      rcases visit_cases distinct taken with ⟨kept, ⟨valid, keeps⟩ | ⟨lost, address, own, removes⟩⟩
      · exact ⟨kept, fun _ => keeps, fun _ => valid⟩
      · refine ⟨kept, fun valid => absurd valid lost, ?_⟩
        intro keeps
        exact absurd removes (keeps address own)

/-- From any set of timers and in every history, the iterator refers to an entry of the set
whenever a callback has returned, exactly if no callback that `doTimer` runs removes its own
timer. -/
theorem iteratorValid_iff {loop : TimerLoop} (distinct : loop.Distinct)
    {labels : List CallbackStep} {last : CallbackLoop}
    (run : runPartial step ⟨loop, none⟩ labels = some last) :
    RunHolds step IteratorValid ⟨loop, none⟩ labels ↔
      RunPermits step KeepsOwnTimer ⟨loop, none⟩ labels := by
  have start : IteratorValid ⟨loop, none⟩ := by
    intro address none
    cases none
  let invariant (state : CallbackLoop) : Prop := state.loop.Distinct
  have initial : invariant ⟨loop, none⟩ := distinct
  apply runHolds_iff_of_run _ _ initial start run
  · intro state label next distinct taken keeps
    rcases step_keeps distinct taken with ⟨after, same⟩
    exact ⟨after, same.mpr keeps⟩
  · intro state label next distinct taken valid
    exact (step_keeps distinct taken).2.mp valid

/-! ## Callbacks that leave the timers alone -/

theorem address_mem {entry : Entry} {timers : TimerList} (member : entry ∈ timers) :
    entry.timer.address ∈ addresses timers :=
  List.mem_map.mpr ⟨entry, member, rfl⟩

section

variable {before behind : TimerList} {entry : Entry}
  (fresh : entry.timer.address ∉ addresses before)

include fresh

theorem other_before {earlier : Entry} (member : earlier ∈ before) :
    earlier.timer.address ≠ entry.timer.address :=
  ne_of_mem_of_not_mem (address_mem member) fresh

theorem lookup_middle :
    lookup entry.timer.address (before ++ entry :: behind) = some entry.timer := by
  have none :
      before.find? (fun earlier => earlier.timer.address == entry.timer.address) = none := by
    rw [List.find?_eq_none]
    intro earlier member
    simpa using other_before fresh member
  rw [lookup, List.find?_append, none]
  simp

theorem next_middle : next entry.timer.address (before ++ entry :: behind) = first behind := by
  have skipped : (before ++ entry :: behind).dropWhile
      (fun later => later.timer.address != entry.timer.address) = entry :: behind := by
    rw [List.dropWhile_append_of_pos]
    · simp
    · intro earlier member
      simpa using other_before fresh member
  rw [next, skipped, List.tail_cons]

theorem removeTimer_middle :
    removeTimer (before ++ entry :: behind) entry.timer.address = before ++ behind := by
  rw [removeTimer, List.eraseP_append_right _ (fun earlier member => by
    simpa using other_before fresh member)]
  simp

theorem update_middle (freshBehind : entry.timer.address ∉ addresses behind) {timer : Timer}
    (same : timer.address = entry.timer.address) :
    update timer (before ++ entry :: behind) =
      before ++ { entry with timer := timer } :: behind := by
  have unchanged {others : TimerList} (absent : entry.timer.address ∉ addresses others) :
      others.map (fun entry => if entry.timer.address = timer.address then
        { entry with timer := timer } else entry) = others := by
    rw [List.map_congr_left, List.map_id]
    intro other member
    have different : other.timer.address ≠ timer.address := by
      rw [same]
      exact ne_of_mem_of_not_mem (address_mem member) absent
    simp [different]
  rw [update, List.map_append, List.map_cons, unchanged fresh, unchanged freshBehind,
    if_pos same.symm]

end

theorem visit_quiet {before behind : TimerList} {entry : Entry} {clock : Int} {created : List Nat}
    (fresh : entry.timer.address ∉ addresses before) :
    visit ⟨⟨before ++ entry :: behind, clock, created⟩, some entry.timer.address⟩ [] =
      if entry.timer.expiration ≤ clock then
        some (advance ⟨before ++ entry :: behind, clock, created⟩ entry.timer.run.2)
      else some ⟨⟨before ++ entry :: behind, clock, created⟩, none⟩ := by
  simp only [visit, Option.bind_eq_bind, Option.bind_some, lookup_middle fresh, perform,
    List.map_nil, runPartial, if_true, Timer.run_eq_afterCallback]
  split
  · split
    · rfl
    · rfl
  · rfl

theorem run_visits_succ {state after : CallbackLoop} (visited : state.visit [] = some after)
    (count : Nat) :
    runPartial step state (List.replicate (count + 1) (.visit [])) =
      runPartial step after (List.replicate count (.visit [])) := by
  rw [List.replicate_succ, runPartial, step, visited, Option.bind_some]

/-- With callbacks that leave the timers alone the rounds come to what `doTimer` does. -/
theorem quiet_visits_doTimer (before : TimerList) {timers : TimerList} (clock : Int)
    (created : List Nat) (distinct : (addresses (before ++ timers)).Nodup) :
    ∃ count, runPartial step ⟨⟨before ++ timers, clock, created⟩, first timers⟩
        (List.replicate count (.visit [])) =
      some ⟨⟨before ++ (TimerQueue.doTimer clock timers).2, clock, created⟩, none⟩ := by
  induction timers generalizing before with
  | nil => exact ⟨0, rfl⟩
  | cons entry behind induction =>
      have parts := distinct
      rw [addresses, List.map_append, List.map_cons, List.nodup_middle, List.nodup_cons,
        List.mem_append, not_or, ← List.map_append] at parts
      rcases parts with ⟨⟨fresh, freshBehind⟩, rest⟩
      have visited := @visit_quiet before behind entry clock created fresh
      by_cases expired : entry.timer.expiration ≤ clock
      · let ran : Entry := { entry with timer := entry.timer.run.2 }
        have same : ran.timer.address = entry.timer.address := entry.timer.run_address
        have freshRan : ran.timer.address ∉ addresses before := by
          rw [same]
          exact fresh
        have nextTimer := @next_middle before behind ran freshRan
        have removed := @removeTimer_middle before behind ran freshRan
        rw [if_pos expired, advance, update_middle fresh freshBehind entry.timer.run_address]
          at visited
        rw [TimerQueue.doTimer, if_pos expired]
        dsimp only at visited ⊢
        rw [nextTimer, removed] at visited
        by_cases last : entry.timer.run.2.repeatCount = 0
        · rw [if_pos last] at visited ⊢
          rcases induction before rest with ⟨count, others⟩
          exact ⟨count + 1, (run_visits_succ visited count).trans others⟩
        · rw [if_neg last] at visited ⊢
          have distinctAfter : (addresses ((before ++ [ran]) ++ behind)).Nodup := by
            have addressesAfter : addresses ((before ++ [ran]) ++ behind) =
                addresses (before ++ entry :: behind) := by
              simp [addresses, ran]
            rw [addressesAfter]
            exact distinct
          rcases induction (before ++ [ran]) distinctAfter with ⟨count, others⟩
          rw [List.append_assoc, List.append_assoc, List.singleton_append,
            List.singleton_append] at others
          exact ⟨count + 1, (run_visits_succ visited count).trans others⟩
      · rw [if_neg expired] at visited
        rw [TimerQueue.doTimer, if_neg expired]
        exact ⟨1, run_visits_succ visited 0⟩

/-- A timer whose callback starts another one and cancels itself, and the other one. -/
def managingRun : List CallbackStep :=
  [.act (.addTimer true 1 5 0 1), .doTimer 5,
    .visit [.addTimer true 2 5 10 (-1), .cancel 1 true], .visit []]

theorem iteratorValid_iff_managing :
    RunHolds step IteratorValid ⟨.start 0, none⟩ managingRun := by
  have distinct : (TimerLoop.start 0).Distinct := ⟨.nil, List.nil_subset _⟩
  have permitted : RunPermits step KeepsOwnTimer ⟨.start 0, none⟩ managingRun := by
    refine ⟨trivial, ?_⟩
    intro added taken
    cases taken
    refine ⟨trivial, ?_⟩
    intro begun taken
    cases taken
    refine ⟨by simp [KeepsOwnTimer], ?_⟩
    intro visited taken
    cases taken
    exact ⟨by simp [KeepsOwnTimer], fun _ _ => trivial⟩
  exact (@iteratorValid_iff _ distinct managingRun _ rfl).mpr permitted

/-- The callback of a timer that repeats stops it, by `remove`. -/
def stoppingRun : List CallbackStep :=
  [.act (.addTimer true 1 5 10 (-1)), .doTimer 5, .visit [.removeTimer 1]]

theorem own_removal_erases_entry :
    runPartial step ⟨.start 0, none⟩ stoppingRun = some ⟨⟨[], 5, [1]⟩, some 1⟩ ∧
      ¬ RunHolds step IteratorValid ⟨.start 0, none⟩ stoppingRun := by
  have run : runPartial step ⟨.start 0, none⟩ stoppingRun = some ⟨⟨[], 5, [1]⟩, some 1⟩ := by
    decide
  refine ⟨run, ?_⟩
  intro along
  have valid := last_of_runHolds along run 1 rfl
  cases valid

end CallbackLoop

end MyBookSources.Net
