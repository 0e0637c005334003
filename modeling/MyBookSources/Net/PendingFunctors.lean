import MyBookSources.Net.EventLoop
import MyBookSources.Net.TcpConnection
import Mathlib.Data.List.Range

/-! # The functors of a loop

What `doPendingFunctors` executes, compared with what was queued: in which
order, how often, in which call, and whether it happens at all before `loop`
returns.
-/

namespace MyBookSources.Net

section

variable {Task : Type}

/-- A functor in the queue. `number` counts the pushes, `running` is the call of
`doPendingFunctors` that was under way at the push, and `swapped` says whether that call
had taken the queue already. -/
structure Push (Task : Type) where
  functor : Task
  number : Nat
  running : Option Nat
  swapped : Bool
  deriving DecidableEq

/-- A loop with its history: the pushes in the order in which they took place, the
executed ones with the call of `doPendingFunctors` that executed them, how many such
calls there were, and how many pushes preceded the last `quit` of the running loop. -/
structure LoopTrace (Task : Type) where
  loop : EventLoop (Push Task)
  pushed : List (Push Task)
  executed : List (Push Task × Nat)
  calls : Nat
  due : Nat
  deriving DecidableEq

inductive LoopLabel (Task : Type)
  | act (action : LoopAction)
  | queueInLoop (caller : Caller) (functor : Task)
  | runInLoop (caller : Caller) (functor : Task)
  | quit (caller : Caller)
  deriving DecidableEq

namespace Phase

/-- The queue has been taken by the call of `doPendingFunctors` that is under way. -/
def hasSwapped (phase : Phase Task) : Bool :=
  match phase with
  | .between _ => true
  | .calling _ => true
  | _ => false

end Phase

namespace Caller

def mayCall (caller : Caller) (loop : EventLoop Task) : Bool :=
  match caller with
  | .loopThread => loop.phase.runsCallbacks
  | .otherThread _ => true

end Caller

namespace LoopTrace

def create : LoopTrace Task := ⟨EventLoop.create, [], [], 0, 0⟩

variable (trace : LoopTrace Task)

def push (functor : Task) : Push Task where
  functor := functor
  number := trace.pushed.length
  running := if trace.loop.phase.inDoPendingFunctors then some trace.calls else none
  swapped := trace.loop.phase.hasSwapped

def queueInLoop (functor : Task) : LoopTrace Task :=
  { trace with
    loop := trace.loop.queueInLoop (trace.push functor)
    pushed := trace.pushed ++ [trace.push functor] }

/-- A step of the loop thread: leaving the handlers begins a call of
`doPendingFunctors`, and calling a functor executes it. -/
def act (action : LoopAction) : Option (LoopTrace Task) :=
  (trace.loop.act action).map fun next =>
    { trace with
      loop := next
      calls := if action = .handle then trace.calls + 1 else trace.calls
      executed :=
        if action = .call then
          trace.executed ++ trace.loop.nextFunctor.toList.map (·, trace.calls)
        else trace.executed }

def step : LoopLabel Task → Option (LoopTrace Task)
  | .act action => trace.act action
  | .queueInLoop caller functor =>
      if caller.mayCall trace.loop then some (trace.queueInLoop functor) else none
  | .runInLoop caller functor =>
      if caller.mayCall trace.loop then
        match caller with
        | .loopThread => some trace
        | .otherThread _ => some (trace.queueInLoop functor)
      else none
  | .quit caller =>
      if caller.mayCall trace.loop then
        some { trace with
          loop := trace.loop.askToQuit
          due := if trace.loop.phase.isLooping then trace.pushed.length else trace.due }
      else none

end LoopTrace

def loopMachine (Task : Type) : Machine (LoopTrace Task) (LoopLabel Task) :=
  .ofPartial LoopTrace.step

namespace LoopTrace

variable {trace next : LoopTrace Task}

inductive Moves (trace : LoopTrace Task) : LoopLabel Task → LoopTrace Task → Prop
  | queue (caller : Caller) (functor : Task) :
      Moves trace (.queueInLoop caller functor) (trace.queueInLoop functor)
  | post (caller : Caller) (functor : Task) :
      Moves trace (.runInLoop caller functor) (trace.queueInLoop functor)
  | run (caller : Caller) (functor : Task) : Moves trace (.runInLoop caller functor) trace
  | quit (caller : Caller) : Moves trace (.quit caller) { trace with
      loop := trace.loop.askToQuit
      due := if trace.loop.phase.isLooping then trace.pushed.length else trace.due }
  | act (action : LoopAction) (loop : EventLoop (Push Task)) :
      trace.loop.Acts action loop → action ≠ .handle → action ≠ .call →
      Moves trace (.act action) { trace with loop := loop }
  | handle : trace.loop.phase = .handling →
      Moves trace (.act .handle) { trace with
        loop := { trace.loop with phase := .swapping }, calls := trace.calls + 1 }
  | call (functor : Push Task) (functors : List (Push Task)) :
      trace.loop.phase = .between (functor :: functors) →
      Moves trace (.act .call) { trace with
        loop := { trace.loop with phase := .calling functors }
        executed := trace.executed ++ [(functor, trace.calls)] }

theorem moves_of_step {label : LoopLabel Task}
    (taken : (loopMachine Task).Step trace label next) : trace.Moves label next := by
  change trace.step label = some next at taken
  cases label with
  | act action =>
      rcases Option.map_eq_some_iff.mp taken with ⟨loop, acted, rfl⟩
      have acts := EventLoop.acts_of_act acted
      cases acts with
      | handle phase => exact .handle phase
      | call functor functors phase =>
          have next : trace.loop.nextFunctor = some functor := by
            rw [EventLoop.nextFunctor, phase]
          simp only [if_neg (show LoopAction.call ≠ .handle by simp), if_pos, next]
          exact .call functor functors phase
      | enter phase => exact .act _ _ (.enter phase) (by simp) (by simp)
      | leave phase quit => exact .act _ _ (.leave phase quit) (by simp) (by simp)
      | goOn phase quit => exact .act _ _ (.goOn phase quit) (by simp) (by simp)
      | swap phase => exact .act _ _ (.swap phase) (by simp) (by simp)
      | back functors phase => exact .act _ _ (.back functors phase) (by simp) (by simp)
      | finish phase => exact .act _ _ (.finish phase) (by simp) (by simp)
      | frame phase => exact .act _ _ (.frame phase) (by simp) (by simp)
  | queueInLoop caller functor =>
      simp only [step] at taken
      split at taken
      · cases taken
        exact .queue caller functor
      · cases taken
  | runInLoop caller functor =>
      simp only [step] at taken
      split at taken
      · cases caller with
        | loopThread =>
            cases taken
            exact .run _ functor
        | otherThread id =>
            cases taken
            exact .post _ functor
      · cases taken
  | quit caller =>
      simp only [step] at taken
      split at taken
      · cases taken
        exact .quit caller
      · cases taken

/-! ## Order and calls -/

/-- Nothing is lost, doubled or overtaken, what was pushed behind the swap of a call
belongs to a later one, and only what was pushed is due. -/
structure Orderly (trace : LoopTrace Task) : Prop where
  conserved : trace.executed.map Prod.fst ++ trace.loop.phase.functors ++
    trace.loop.pendingFunctors = trace.pushed
  numbered : trace.pushed.map Push.number = List.range trace.pushed.length
  waiting : ∀ push ∈ trace.loop.pendingFunctors, ∀ running, push.running = some running →
    push.swapped = true → running ≤ trace.calls ∧
      (trace.loop.phase = .swapping → running < trace.calls)
  taken : ∀ push ∈ trace.loop.phase.functors, ∀ running, push.running = some running →
    push.swapped = true → running < trace.calls
  done : ∀ entry ∈ trace.executed, ∀ running, entry.1.running = some running →
    entry.1.swapped = true → running < entry.2
  bounded : trace.due ≤ trace.pushed.length

theorem create_orderly : Orderly (create : LoopTrace Task) where
  conserved := rfl
  numbered := rfl
  waiting _ member := by cases member
  taken _ member := by cases member
  done _ member := by cases member
  bounded := Nat.le_refl 0

theorem queueInLoop_orderly (orderly : Orderly trace) (functor : Task) :
    Orderly (trace.queueInLoop functor) where
  conserved := by
    change trace.executed.map Prod.fst ++ trace.loop.phase.functors ++
      (trace.loop.pendingFunctors ++ [trace.push functor]) = trace.pushed ++ [trace.push functor]
    rw [← List.append_assoc, orderly.conserved]
  numbered := by
    change (trace.pushed ++ [trace.push functor]).map Push.number =
      List.range (trace.pushed ++ [trace.push functor]).length
    rw [List.map_append, orderly.numbered, List.length_append, List.length_singleton,
      List.range_succ]
    rfl
  waiting push member running is swapped := by
    change push ∈ trace.loop.pendingFunctors ++ [trace.push functor] at member
    rw [List.mem_append, List.mem_singleton] at member
    cases member with
    | inl earlier => exact orderly.waiting push earlier running is swapped
    | inr new =>
        rw [new] at is swapped
        have behindSwap : trace.loop.phase.hasSwapped = true := swapped
        have current : trace.calls = running := by
          simp only [LoopTrace.push] at is
          split at is
          · exact Option.some.inj is
          · cases is
        constructor
        · exact Nat.le_of_eq current.symm
        · intro swapping
          change trace.loop.phase = .swapping at swapping
          rw [swapping] at behindSwap
          cases behindSwap
  taken := orderly.taken
  done := orderly.done
  bounded := by
    change trace.due ≤ (trace.pushed ++ [trace.push functor]).length
    rw [List.length_append]
    exact Nat.le_add_right_of_le orderly.bounded

theorem quit_orderly (orderly : Orderly trace) :
    Orderly { trace with
      loop := trace.loop.askToQuit
      due := if trace.loop.phase.isLooping then trace.pushed.length else trace.due } where
  conserved := orderly.conserved
  numbered := orderly.numbered
  waiting := orderly.waiting
  taken := orderly.taken
  done := orderly.done
  bounded := by
    dsimp only
    split
    · exact Nat.le_refl _
    · exact orderly.bounded

theorem Orderly.rephase (orderly : Orderly trace) {loop : EventLoop (Push Task)}
    (functors : loop.phase.functors = trace.loop.phase.functors)
    (pending : loop.pendingFunctors = trace.loop.pendingFunctors)
    (notSwapping : loop.phase ≠ .swapping) : Orderly { trace with loop := loop } where
  conserved := by
    change trace.executed.map Prod.fst ++ loop.phase.functors ++ loop.pendingFunctors =
      trace.pushed
    rw [functors, pending, orderly.conserved]
  numbered := orderly.numbered
  waiting push member running is swapped := by
    change push ∈ loop.pendingFunctors at member
    rw [pending] at member
    constructor
    · exact (orderly.waiting push member running is swapped).1
    · intro swapping
      exact absurd swapping notSwapping
  taken push member := by
    change push ∈ loop.phase.functors at member
    rw [functors] at member
    exact orderly.taken push member
  done := orderly.done
  bounded := orderly.bounded

theorem swap_orderly (orderly : Orderly trace) (phase : trace.loop.phase = .swapping) :
    Orderly { trace with loop := { trace.loop with
      phase := .between trace.loop.pendingFunctors, pendingFunctors := [] } } where
  conserved := by
    have conserved := orderly.conserved
    rw [phase] at conserved
    change trace.executed.map Prod.fst ++ trace.loop.pendingFunctors ++ [] = trace.pushed
    rw [List.append_nil, ← conserved]
    simp [Phase.functors]
  numbered := orderly.numbered
  waiting push member := by cases member
  taken push member running is swapped := by
    exact (orderly.waiting push member running is swapped).2 phase
  done := orderly.done
  bounded := orderly.bounded

theorem call_orderly (orderly : Orderly trace) {functor : Push Task}
    {functors : List (Push Task)} (phase : trace.loop.phase = .between (functor :: functors)) :
    Orderly { trace with
      loop := { trace.loop with phase := .calling functors }
      executed := trace.executed ++ [(functor, trace.calls)] } where
  conserved := by
    have conserved := orderly.conserved
    rw [phase] at conserved
    change (trace.executed ++ [(functor, trace.calls)]).map Prod.fst ++ functors ++
      trace.loop.pendingFunctors = trace.pushed
    rw [← conserved]
    simp [Phase.functors]
  numbered := orderly.numbered
  waiting push member running is swapped := by
    constructor
    · exact (orderly.waiting push member running is swapped).1
    · intro swapping
      cases swapping
  taken push member := by
    apply orderly.taken push
    rw [phase]
    exact List.mem_cons_of_mem _ member
  done entry member running is swapped := by
    change entry ∈ trace.executed ++ [(functor, trace.calls)] at member
    rw [List.mem_append, List.mem_singleton] at member
    cases member with
    | inl earlier => exact orderly.done entry earlier running is swapped
    | inr new =>
        rw [new] at is swapped ⊢
        apply orderly.taken functor _ running is swapped
        rw [phase]
        exact List.mem_cons_self
  bounded := orderly.bounded

theorem handle_orderly (orderly : Orderly trace) (phase : trace.loop.phase = .handling) :
    Orderly { trace with
      loop := { trace.loop with phase := .swapping }, calls := trace.calls + 1 } where
  conserved := by
    have conserved := orderly.conserved
    rw [phase] at conserved
    exact conserved
  numbered := orderly.numbered
  waiting push member running is swapped := by
    have before := (orderly.waiting push member running is swapped).1
    constructor
    · exact Nat.le_succ_of_le before
    · intro _
      exact Nat.lt_succ_of_le before
  taken push member := by cases member
  done := orderly.done
  bounded := orderly.bounded

/-- Every step keeps the order, whichever thread makes it. -/
theorem moves_orderly {label : LoopLabel Task} (orderly : Orderly trace)
    (moves : trace.Moves label next) : Orderly next := by
  cases moves with
  | queue caller functor => exact queueInLoop_orderly orderly functor
  | post caller functor => exact queueInLoop_orderly orderly functor
  | run caller functor => exact orderly
  | quit caller => exact quit_orderly orderly
  | handle phase => exact handle_orderly orderly phase
  | call functor functors phase => exact call_orderly orderly phase
  | act action loop acts notHandle notCall =>
      cases acts with
      | enter phase => exact orderly.rephase (by rw [phase]; rfl) rfl (by simp)
      | leave phase quit => exact orderly.rephase (by rw [phase]; rfl) rfl (by simp)
      | goOn phase quit => exact orderly.rephase (by rw [phase]; rfl) rfl (by simp)
      | handle phase => exact absurd rfl notHandle
      | swap phase => exact swap_orderly orderly phase
      | call functor functors phase => exact absurd rfl notCall
      | back functors phase => exact orderly.rephase (by rw [phase]; rfl) rfl (by simp)
      | finish phase => exact orderly.rephase (by rw [phase]; rfl) rfl (by simp)
      | frame phase => exact orderly.rephase (by rw [phase]; rfl) rfl (by simp)

theorem orderly_of_transitions {labels : List (LoopLabel Task)}
    (transitions : (loopMachine Task).Transitions LoopTrace.create labels trace) :
    Orderly trace := by
  apply transitions.invariant
  · intro before label after orderly taken
    exact moves_orderly orderly (moves_of_step taken)
  · exact create_orderly

/-- The executed functors are those pushed first, in their order. -/
theorem Orderly.executed_isPrefix (orderly : Orderly trace) :
    trace.executed.map Prod.fst <+: trace.pushed := by
  apply List.prefix_iff_exists_append_eq.mpr
  apply Exists.intro (trace.loop.phase.functors ++ trace.loop.pendingFunctors)
  rw [← List.append_assoc]
  exact orderly.conserved

theorem Orderly.executed_nodup (orderly : Orderly trace) :
    (trace.executed.map fun entry => entry.1.number).Nodup := by
  have pushed : (trace.pushed.map Push.number).Nodup := by
    rw [orderly.numbered]
    exact List.nodup_range
  have shorter := (orderly.executed_isPrefix.map Push.number).sublist.nodup pushed
  rw [List.map_map] at shorter
  exact shorter

end LoopTrace

namespace LoopTrace

/-! ## Quitting -/

/-- Every functor that was queued before the last `quit` has been executed. -/
def DueExecuted (trace : LoopTrace Task) : Prop :=
  ∀ push ∈ trace.pushed, push.number < trace.due → push ∈ trace.executed.map Prod.fst

/-- The condition on `quit`: nothing is queued, or the loop has still to take the queue
before it tests `quit_` again. -/
def QuitsInTime (trace : LoopTrace Task) : LoopLabel Task → Prop
  | .quit _ => trace.loop.phase.isLooping = true → trace.loop.pendingFunctors = [] ∨
      trace.loop.phase = .handling ∨ trace.loop.phase = .swapping
  | _ => True

instance (trace : LoopTrace Task) (label : LoopLabel Task) [DecidableEq Task] :
    Decidable (trace.QuitsInTime label) :=
  match label with
  | .quit _ => inferInstanceAs (Decidable (_ → _ ∨ _ ∨ _))
  | .act _ => isTrue trivial
  | .queueInLoop _ _ => isTrue trivial
  | .runInLoop _ _ => isTrue trivial

/-- The functors due are executed, taken, or still to be taken before the next test. -/
def InTime (trace : LoopTrace Task) : Prop :=
  trace.loop.phase = .handling ∨ trace.loop.phase = .swapping ∨
    trace.due ≤ trace.executed.length + trace.loop.phase.functors.length

/-- The loop is on its way out and leaves functors that were due in the queue. -/
structure TooLate (trace : LoopTrace Task) : Prop where
  quit : trace.loop.quit = true
  entered : trace.loop.phase ≠ .created
  behind : trace.loop.phase ≠ .handling ∧ trace.loop.phase ≠ .swapping
  missed : trace.executed.length + trace.loop.phase.functors.length < trace.due

theorem Orderly.length_pushed (orderly : Orderly trace) :
    trace.pushed.length = trace.executed.length + trace.loop.phase.functors.length +
      trace.loop.pendingFunctors.length := by
  rw [← orderly.conserved]
  simp [Nat.add_assoc]

theorem Orderly.number_eq (orderly : Orderly trace) {push : Push Task} {position : Nat}
    (here : trace.pushed[position]? = some push) : push.number = position := by
  have inside : position < trace.pushed.length := (List.getElem?_eq_some_iff.mp here).1
  have number : (trace.pushed.map Push.number)[position]? = some position := by
    rw [orderly.numbered, List.getElem?_range inside]
  rw [List.getElem?_map, here] at number
  exact Option.some.inj number

theorem Orderly.mem_executed_iff (orderly : Orderly trace) {push : Push Task}
    (member : push ∈ trace.pushed) :
    push ∈ trace.executed.map Prod.fst ↔ push.number < trace.executed.length := by
  have front := List.prefix_iff_eq_take.mp orderly.executed_isPrefix
  rw [List.length_map] at front
  rw [front]
  constructor
  · intro executed
    rcases List.getElem?_of_mem executed with ⟨position, here⟩
    rw [List.getElem?_take] at here
    split at here
    · next early =>
        rw [orderly.number_eq here]
        exact early
    · cases here
  · intro early
    rcases List.getElem?_of_mem member with ⟨position, here⟩
    rw [orderly.number_eq here] at early
    apply List.mem_of_getElem?
    rw [List.getElem?_take_of_lt early]
    exact here

theorem Orderly.dueExecuted_iff (orderly : Orderly trace) :
    trace.DueExecuted ↔ trace.due ≤ trace.executed.length := by
  constructor
  · intro executed
    apply Nat.le_of_not_lt
    intro missed
    have inside : trace.executed.length < trace.pushed.length :=
      Nat.lt_of_lt_of_le missed orderly.bounded
    have number := orderly.number_eq (List.getElem?_eq_getElem inside)
    have member := List.getElem_mem inside
    have early : (trace.pushed[trace.executed.length]).number < trace.executed.length := by
      apply (orderly.mem_executed_iff member).mp
      apply executed _ member
      rw [number]
      exact missed
    rw [number] at early
    exact Nat.lt_irrefl _ early
  · intro enough push member early
    apply (orderly.mem_executed_iff member).mpr
    exact Nat.lt_of_lt_of_le early enough

theorem InTime.rephase (inTime : InTime trace) (notHandling : trace.loop.phase ≠ .handling)
    (notSwapping : trace.loop.phase ≠ .swapping) :
    trace.due ≤ trace.executed.length + trace.loop.phase.functors.length := by
  rcases inTime with handling | swapping | enough
  · exact absurd handling notHandling
  · exact absurd swapping notSwapping
  · exact enough

theorem quit_inTime (orderly : Orderly trace) (inTime : InTime trace) {caller : Caller}
    (condition : trace.QuitsInTime (.quit caller)) :
    InTime { trace with
      loop := trace.loop.askToQuit
      due := if trace.loop.phase.isLooping then trace.pushed.length else trace.due } := by
  by_cases looping : trace.loop.phase.isLooping = true
  · simp only [looping, if_pos]
    rcases condition looping with empty | handling | swapping
    · have length := orderly.length_pushed
      rw [empty] at length
      exact .inr (.inr (Nat.le_of_eq length))
    · exact .inl handling
    · exact .inr (.inl swapping)
  · simp only [looping]
    exact inTime

theorem moves_inTime {label : LoopLabel Task} (orderly : Orderly trace)
    (inTime : InTime trace) (condition : trace.QuitsInTime label)
    (moves : trace.Moves label next) : InTime next := by
  cases moves with
  | queue caller functor => exact inTime
  | post caller functor => exact inTime
  | run caller functor => exact inTime
  | quit caller => exact quit_inTime orderly inTime condition
  | handle phase => exact .inr (.inl rfl)
  | call functor functors phase =>
      have enough := inTime.rephase (by simp [phase]) (by simp [phase])
      rw [phase] at enough
      apply Or.inr
      apply Or.inr
      simp only [Phase.functors, List.length_append, List.length_cons, List.length_nil] at *
      omega
  | act action loop acts notHandle notCall =>
      cases acts with
      | handle phase => exact absurd rfl notHandle
      | call functor functors phase => exact absurd rfl notCall
      | goOn phase quit => exact .inl rfl
      | swap phase =>
          have length := orderly.length_pushed
          rw [phase] at length
          have bounded := orderly.bounded
          apply Or.inr
          apply Or.inr
          simp only [Phase.functors, List.length_nil] at *
          omega
      | enter phase | leave phase quit | back functors phase | finish phase | frame phase =>
          have enough := inTime.rephase (by simp [phase]) (by simp [phase])
          rw [phase] at enough
          exact .inr (.inr enough)

theorem moves_out_of_time {label : LoopLabel Task} (orderly : Orderly trace)
    (condition : ¬ trace.QuitsInTime label) (moves : trace.Moves label next) :
    TooLate next := by
  cases moves with
  | quit caller =>
      simp only [QuitsInTime, Classical.not_imp, not_or] at condition
      rcases condition with ⟨looping, waiting, notHandling, notSwapping⟩
      constructor
      · rfl
      · intro created
        change trace.loop.phase = .created at created
        rw [created] at looping
        cases looping
      · exact ⟨notHandling, notSwapping⟩
      · have length := orderly.length_pushed
        have some_waiting := List.length_pos_iff.mpr waiting
        simp only [looping, if_pos, EventLoop.askToQuit_phase]
        omega
  | _ => exact absurd trivial condition

theorem quit_tooLate (orderly : Orderly trace) (tooLate : TooLate trace) :
    TooLate { trace with
      loop := trace.loop.askToQuit
      due := if trace.loop.phase.isLooping then trace.pushed.length else trace.due } where
  quit := rfl
  entered := tooLate.entered
  behind := tooLate.behind
  missed := by
    have missed := tooLate.missed
    simp only [EventLoop.askToQuit_phase]
    split
    · exact Nat.lt_of_lt_of_le missed orderly.bounded
    · exact missed

theorem TooLate.rephase (tooLate : TooLate trace) {loop : EventLoop (Push Task)}
    {executed : List (Push Task × Nat)} (quit : loop.quit = trace.loop.quit)
    (entered : loop.phase ≠ .created)
    (behind : loop.phase ≠ .handling ∧ loop.phase ≠ .swapping)
    (ahead : executed.length + loop.phase.functors.length =
      trace.executed.length + trace.loop.phase.functors.length) :
    TooLate { trace with loop := loop, executed := executed } where
  quit := quit.trans tooLate.quit
  entered := entered
  behind := behind
  missed := by
    change executed.length + loop.phase.functors.length < trace.due
    rw [ahead]
    exact tooLate.missed

theorem moves_tooLate {label : LoopLabel Task} (orderly : Orderly trace)
    (tooLate : TooLate trace) (moves : trace.Moves label next) : TooLate next := by
  cases moves with
  | queue caller functor =>
      exact ⟨tooLate.quit, tooLate.entered, tooLate.behind, tooLate.missed⟩
  | post caller functor =>
      exact ⟨tooLate.quit, tooLate.entered, tooLate.behind, tooLate.missed⟩
  | run caller functor => exact tooLate
  | quit caller => exact quit_tooLate orderly tooLate
  | handle phase => exact absurd phase tooLate.behind.1
  | call functor functors phase =>
      apply tooLate.rephase
      · rfl
      · simp
      · simp
      · rw [phase]
        simp only [Phase.functors, List.length_append, List.length_cons, List.length_nil]
        omega
  | act action loop acts notHandle notCall =>
      cases acts with
      | enter phase => exact absurd phase tooLate.entered
      | goOn phase quit =>
          rw [tooLate.quit] at quit
          cases quit
      | handle phase => exact absurd rfl notHandle
      | swap phase => exact absurd phase tooLate.behind.2
      | call functor functors phase => exact absurd rfl notCall
      | leave phase quit => exact tooLate.rephase rfl (by simp) (by simp) (by rw [phase]; rfl)
      | back functors phase => exact tooLate.rephase rfl (by simp) (by simp) (by rw [phase]; rfl)
      | finish phase => exact tooLate.rephase rfl (by simp) (by simp) (by rw [phase]; rfl)
      | frame phase => exact tooLate.rephase rfl (by simp) (by simp) (by rw [phase]; rfl)

theorem inTime_of_transitions {labels : List (LoopLabel Task)}
    (transitions : ((loopMachine Task).restrict QuitsInTime).Transitions LoopTrace.create
      labels trace) : InTime trace := by
  apply Machine.Transitions.invariant_of_invariant transitions
  · intro before label after orderly taken
    exact moves_orderly orderly (moves_of_step taken.1)
  · intro before label after orderly _ inTime taken
    exact moves_inTime orderly inTime taken.2 (moves_of_step taken.1)
  · exact create_orderly
  · exact .inr (.inr (Nat.le_refl 0))

end LoopTrace

open LoopTrace in
/-- In every interleaving the executed functors are a prefix of the pushes, none is
executed twice, and one that was pushed while `doPendingFunctors` was executing what it
had swapped out is executed in a later call only. -/
theorem pendingFunctors_in_order {trace : LoopTrace Task} {labels : List (LoopLabel Task)}
    (transitions : (loopMachine Task).Transitions LoopTrace.create labels trace) :
    trace.executed.map Prod.fst <+: trace.pushed ∧
      (trace.executed.map fun entry => entry.1.number).Nodup ∧
      ∀ entry ∈ trace.executed, ∀ running, entry.1.running = some running →
        entry.1.swapped = true → running < entry.2 := by
  have orderly := orderly_of_transitions transitions
  constructor
  · exact orderly.executed_isPrefix
  · exact ⟨orderly.executed_nodup, orderly.done⟩

/-- A functor that queues another one, which the next call executes. -/
theorem pendingFunctors_in_order_requeued :
    ∃ trace : LoopTrace Call, trace.executed.map Prod.snd = [1, 2] ∧
      (trace.executed.map Prod.fst <+: trace.pushed ∧
        (trace.executed.map fun entry => entry.1.number).Nodup ∧
        ∀ entry ∈ trace.executed, ∀ running, entry.1.running = some running →
          entry.1.swapped = true → running < entry.2) := by
  have facts : (Machine.runPartial LoopTrace.step (LoopTrace.create : LoopTrace Call)
      [.queueInLoop (.otherThread 0) .connectEstablished, .act .enter, .act .test, .act .handle,
        .act .swap, .act .call, .queueInLoop .loopThread .forceCloseInLoop, .act .back,
        .act .finish, .act .frame, .act .test, .act .handle, .act .swap, .act .call]).map
        (fun trace => trace.executed.map Prod.snd) = some [1, 2] := by decide +kernel
  rcases Option.map_eq_some_iff.mp facts with ⟨trace, ran, executed⟩
  apply Exists.intro trace
  constructor
  · exact executed
  · exact pendingFunctors_in_order (Machine.transitions_of_runPartial ran)

/-- A functor that is queued between the beginning of `doPendingFunctors` and its swap is
executed in the same call. -/
theorem queued_before_swap_same_call :
    ¬ ∀ (Task : Type) (labels : List (LoopLabel Task)) (trace : LoopTrace Task),
      (loopMachine Task).Transitions LoopTrace.create labels trace →
      trace.executed.map Prod.fst <+: trace.pushed ∧
        (trace.executed.map fun entry => entry.1.number).Nodup ∧
        ∀ entry ∈ trace.executed, ∀ running, entry.1.running = some running →
          running < entry.2 := by
  intro law
  have facts : (Machine.runPartial LoopTrace.step (LoopTrace.create : LoopTrace Call)
      [.act .enter, .act .test, .act .handle,
        .queueInLoop (.otherThread 0) .connectDestroyed, .act .swap, .act .call]).map
        (fun trace => trace.executed) =
      some [(⟨.connectDestroyed, 0, some 1, false⟩, 1)] := by decide +kernel
  rcases Option.map_eq_some_iff.mp facts with ⟨trace, ran, executed⟩
  have later := (law Call _ trace (Machine.transitions_of_runPartial ran)).2.2
  rw [executed] at later
  have same := later _ (List.mem_singleton.mpr rfl) 1 rfl
  exact Nat.lt_irrefl 1 same

open LoopTrace in
/-- A loop that has returned has executed what was queued before `quit` was called if and
only if each `quit` was in time. -/
theorem queued_before_quit_executed_iff {trace : LoopTrace Task}
    {labels : List (LoopLabel Task)}
    (transitions : (loopMachine Task).Transitions LoopTrace.create labels trace)
    (returned : trace.loop.phase = .returned) :
    trace.DueExecuted ↔
      ((loopMachine Task).restrict QuitsInTime).Transitions LoopTrace.create labels trace := by
  have orderly := orderly_of_transitions transitions
  have cases_of_run := transitions.restrict_or
    (fun before label after orderly taken => moves_orderly orderly (moves_of_step taken))
    (fun before label after orderly taken condition =>
      moves_out_of_time orderly condition (moves_of_step taken))
    (fun before label after orderly tooLate taken =>
      moves_tooLate orderly tooLate (moves_of_step taken))
    create_orderly
  rw [orderly.dueExecuted_iff]
  constructor
  · intro enough
    cases cases_of_run with
    | inl checked => exact checked
    | inr tooLate =>
        have missed := tooLate.missed
        omega
  · intro checked
    have enough := (inTime_of_transitions checked).rephase (by simp [returned])
      (by simp [returned])
    rw [returned] at enough
    exact enough

/-- A `quit` from a callback of the loop finds its functor taken before the next test. -/
theorem queued_before_quit_executed_iff_callback :
    ∃ trace : LoopTrace Call, trace.due = 1 ∧ trace.DueExecuted := by
  have facts : (Machine.runPartial (fun trace label =>
      if trace.QuitsInTime label then trace.step label else none)
      (LoopTrace.create : LoopTrace Call)
      [.act .enter, .act .test, .runInLoop (.otherThread 0) .connectDestroyed,
        .quit .loopThread, .act .handle, .act .swap, .act .call, .act .back, .act .finish,
        .act .frame, .act .test]).map (fun trace => (trace.due, trace.loop.phase)) =
      some (1, .returned) := by decide +kernel
  rcases Option.map_eq_some_iff.mp facts with ⟨trace, ran, facts⟩
  simp only [Prod.mk.injEq] at facts
  have checked := Machine.transitions_of_checked_run ran
  apply Exists.intro trace
  constructor
  · exact facts.1
  · exact (queued_before_quit_executed_iff checked.of_restrict facts.2).mpr checked

/-- What `TcpServer::stop` posts behind the swap stays in the queue when `quit` follows
before the next test. -/
theorem stopped_loop_leaves_connectDestroyed :
    ¬ ∀ (Task : Type) (labels : List (LoopLabel Task)) (trace : LoopTrace Task),
      (loopMachine Task).Transitions LoopTrace.create labels trace →
      trace.loop.phase = .returned → trace.DueExecuted := by
  intro law
  have facts : (Machine.runPartial LoopTrace.step (LoopTrace.create : LoopTrace Call)
      [.act .enter, .act .test, .act .handle, .act .swap,
        .runInLoop (.otherThread 0) .connectDestroyed, .quit (.otherThread 0), .act .finish,
        .act .frame, .act .test]).map
        (fun trace => (trace.loop.phase, trace.due, trace.pushed, trace.executed.isEmpty)) =
      some (.returned, 1, [⟨.connectDestroyed, 0, some 1, true⟩], true) := by decide +kernel
  rcases Option.map_eq_some_iff.mp facts with ⟨trace, ran, facts⟩
  simp only [Prod.mk.injEq] at facts
  rcases facts with ⟨returned, due, pushed, executed⟩
  have all := law Call _ trace (Machine.transitions_of_runPartial ran) returned
  have last := all ⟨.connectDestroyed, 0, some 1, true⟩ (by simp [pushed]) (by simp [due])
  rw [List.isEmpty_iff.mp executed] at last
  cases last

end

end MyBookSources.Net
