import MyBookSources.Net.ConnectionMachine
import MyBookSources.Net.TcpConnectionSpec
import Mathlib.Data.List.Count

/-! # The life of a connection

Up, down and close are each delivered at most once, up never after down, and a
disconnected connection stays so, however the calls on the loop thread interleave
and nest.
-/

namespace MyBookSources.Net

namespace Config

def ups (config : Config) : Nat := config.log.count (.connectionCallback true)

def downs (config : Config) : Nat := config.log.count (.connectionCallback false)

def closes (config : Config) : Nat := config.log.count .closeCallback

def pendingCloses (config : Config) : Nat := config.stack.count .closeCallback

def Disconnected (config : Config) : Prop := config.endpoint.state = .kDisconnected

def NoUpAfterDown (config : Config) : Prop :=
  config.log.Pairwise fun earlier later =>
    earlier = .connectionCallback false → later ≠ .connectionCallback true

/-- Each close, delivered or pending, is paid for by a down, and each down by leaving
the live states for good. -/
structure Lifecycle (config : Config) : Prop where
  ups_le : config.ups ≤ 1
  ups_connecting : config.endpoint.state = .kConnecting → config.ups = 0
  downs_le : config.downs ≤ 1
  downs_alive : config.endpoint.state ≠ .kDisconnected → config.downs = 0
  downs_ended : config.endpoint.state = .kDisconnected → 0 < config.downs
  closes_le : config.closes + config.pendingCloses ≤ config.downs
  ordered : config.NoUpAfterDown

end Config

open Config

theorem isEntry_ne_closeCallback {endpoint : Endpoint} {call : Call}
    (entry : call.isEntry endpoint = true) : call ≠ .closeCallback := by
  rintro rfl
  cases entry

theorem functor_calls_count (functor : Functor) : functor.calls.count .closeCallback = 0 := by
  cases functor <;> rfl

theorem handsOver_ne_closeCallback {endpoint : Endpoint} {next : Call}
    (handed : endpoint.HandsOver next) : next ≠ .closeCallback := by
  cases handed <;> simp

theorem handleEventWithGuard_count (revents : Events) (read : ReadResult)
    (write : WriteResult) :
    (Endpoint.handleEventWithGuard revents read write).count .closeCallback = 0 := by
  simp only [Endpoint.handleEventWithGuard, List.count_append]
  repeat' split
  all_goals simp

private theorem count_eq_zero_of_handsOver {endpoint : Endpoint} {calls : List Call}
    (handed : ∀ next ∈ calls, endpoint.HandsOver next) :
    calls.count .closeCallback = 0 :=
  List.count_eq_zero.mpr fun member =>
    handsOver_ne_closeCallback (handed _ member) rfl

private theorem lifecycle_of_messages {before after : Config} {messages : List Callback}
    (lifecycle : before.Lifecycle) (log : after.log = before.log ++ messages)
    (only : ∀ callback ∈ messages, ∃ buffer, callback = .messageCallback buffer)
    (pending : after.pendingCloses ≤ before.pendingCloses)
    (state : after.endpoint.state = before.endpoint.state ∨
      before.endpoint.state = .kConnected ∧ after.endpoint.state = .kDisconnecting) :
    after.Lifecycle := by
  rcases lifecycle with ⟨upsLe, upsConnecting, downsLe, downsAlive, downsEnded, closesLe, ordered⟩
  have none (callback : Callback) (other : ∀ buffer, callback ≠ .messageCallback buffer) :
      messages.count callback = 0 := by
    apply List.count_eq_zero.mpr
    intro member
    rcases only callback member with ⟨buffer, same⟩
    exact other buffer same
  have ups : after.ups = before.ups := by
    simp [Config.ups, log, none]
  have downs : after.downs = before.downs := by
    simp [Config.downs, log, none]
  have closes : after.closes = before.closes := by
    simp [Config.closes, log, none]
  have noUp : after.NoUpAfterDown := by
    rw [NoUpAfterDown, log, List.pairwise_append]
    refine ⟨ordered, ?_, ?_⟩
    · apply List.pairwise_of_forall_mem_list
      intro earlier member later _ down
      rcases only earlier member with ⟨buffer, same⟩
      rw [same] at down
      cases down
    · intro earlier _ later member _
      rcases only later member with ⟨buffer, same⟩
      rw [same]
      simp
  refine ⟨by rw [ups]; exact upsLe, ?_, by rw [downs]; exact downsLe, ?_, ?_,
    by rw [closes, downs]; omega, noUp⟩
  · intro connecting
    rw [ups]
    rcases state with same | left
    · exact upsConnecting (by rw [← same, connecting])
    · rw [left.2] at connecting
      cases connecting
  · intro alive
    rw [downs]
    apply downsAlive
    rcases state with same | left
    · rw [← same]
      exact alive
    · simp [left.1]
  · intro ended
    rw [downs]
    rcases state with same | left
    · exact downsEnded (by rw [← same, ended])
    · rw [left.2] at ended
      cases ended

theorem advance_lifecycle {platform : Platform} {config : Config} {call : Call}
    {rest : List Call} (lifecycle : config.Lifecycle) (stack : config.stack = call :: rest)
    (ctl : Bool) : (config.advance platform ctl call rest).Lifecycle := by
  have pendingEq : config.pendingCloses =
      rest.count .closeCallback + if call = .closeCallback then 1 else 0 := by
    simp [pendingCloses, stack, List.count_cons]
  have change := config.endpoint.execute_change platform ctl call
  unfold Config.advance
  generalize config.endpoint.execute platform ctl call = outcome at change ⊢
  cases change with
  | event revents read write =>
      refine lifecycle_of_messages lifecycle rfl (by simp) ?_ (.inl rfl)
      simp [pendingCloses, handleEventWithGuard_count] at pendingEq ⊢
      omega
  | message data after kept state =>
      refine lifecycle_of_messages lifecycle rfl (by simp) ?_ (.inl state)
      simp [pendingCloses] at pendingEq ⊢
      omega
  | quiet _ after calls kept state handed closing =>
      refine lifecycle_of_messages lifecycle rfl (by simp) ?_ state
      simp [pendingCloses, count_eq_zero_of_handsOver handed] at pendingEq ⊢
      omega
  | queued message write after updated state alive =>
      refine lifecycle_of_messages lifecycle rfl (by simp) ?_ (.inl state)
      simp [pendingCloses] at pendingEq ⊢
      omega
  | drained write after writing updated state =>
      refine lifecycle_of_messages lifecycle rfl (by simp) ?_ (.inl state)
      simp [pendingCloses] at pendingEq ⊢
      omega
  | removed =>
      refine lifecycle_of_messages lifecycle rfl (by simp) ?_ (.inl ?_)
      · simp [pendingCloses] at pendingEq ⊢
        omega
      · unfold Endpoint.removeChannel
        split <;> rfl
  | opened after connecting connected updated answer =>
      rcases lifecycle with
        ⟨upsLe, upsConnecting, downsLe, downsAlive, downsEnded, closesLe, ordered⟩
      have noUps := upsConnecting connecting
      have noDowns := downsAlive (by simp [connecting])
      have noDown : .connectionCallback false ∉ config.log := List.count_eq_zero.mp noDowns
      simp only [ups, downs, closes, pendingCloses] at noUps noDowns closesLe pendingEq
      constructor
      · simp [ups, noUps]
      · simp [connected]
      · simp [downs, noDowns]
      · simp [downs, noDowns]
      · simp [connected]
      · simp [closes, pendingCloses, downs]
        omega
      · simp only [NoUpAfterDown, List.pairwise_append]
        refine ⟨ordered, by simp, fun earlier member later _ down => ?_⟩
        exact absurd (down ▸ member) noDown
  | openingFailed after connecting connected updated =>
      rcases lifecycle with
        ⟨upsLe, upsConnecting, downsLe, downsAlive, downsEnded, closesLe, ordered⟩
      have noDowns := downsAlive (by simp [connecting])
      simp only [ups, downs, closes, pendingCloses] at upsLe noDowns closesLe pendingEq
      constructor
      · simpa [ups] using upsLe
      · simp [connected]
      · simp [downs, noDowns]
      · simp [downs, noDowns]
      · simp [connected]
      · simp [closes, pendingCloses, downs]
        omega
      · simpa [NoUpAfterDown] using ordered
  | closed _ after last alive disconnected updated origin =>
      rcases lifecycle with
        ⟨upsLe, upsConnecting, downsLe, downsAlive, downsEnded, closesLe, ordered⟩
      have noDowns := downsAlive alive
      simp only [ups, downs, closes, pendingCloses] at upsLe noDowns closesLe pendingEq
      constructor
      · simpa [ups] using upsLe
      · simp [disconnected]
      · simp [downs, noDowns]
      · simp [disconnected]
      · simp [downs]
      · have one : List.count Call.closeCallback [last] ≤ 1 := List.count_le_length
        simp only [closes, pendingCloses, downs, List.count_append, List.count_cons] at one ⊢
        simp at one ⊢
        omega
      · simp only [NoUpAfterDown, List.pairwise_append]
        exact ⟨ordered, by simp, by simp⟩
  | closeDelivered =>
      rcases lifecycle with
        ⟨upsLe, upsConnecting, downsLe, downsAlive, downsEnded, closesLe, ordered⟩
      simp only [ups, downs, closes, pendingCloses] at *
      constructor
      · simpa [ups] using upsLe
      · simpa [ups] using upsConnecting
      · simpa [downs] using downsLe
      · simpa [downs] using downsAlive
      · simpa [downs] using downsEnded
      · simp [closes, pendingCloses, downs] at closesLe pendingEq ⊢
        omega
      · simp only [NoUpAfterDown, List.pairwise_append]
        exact ⟨ordered, by simp, by simp⟩

/-- One step of the loop thread keeps the lifecycle. -/
theorem step_lifecycle {platform : Platform} {before after : Config} {label : Label}
    (lifecycle : before.Lifecycle) (moves : before.Moves platform label after) :
    after.Lifecycle := by
  cases moves with
  | enter call idle entry =>
      have other := isEntry_ne_closeCallback entry
      refine lifecycle_of_messages lifecycle (List.append_nil _).symm (by simp) ?_ (.inl rfl)
      simp [pendingCloses, other]
  | advance ctl call rest stack running => exact advance_lifecycle lifecycle stack ctl
  | leave rest stack =>
      refine lifecycle_of_messages lifecycle (List.append_nil _).symm (by simp) ?_ (.inl rfl)
      simp [pendingCloses, stack]
  | dispatch functor others stack =>
      refine lifecycle_of_messages lifecycle (List.append_nil _).symm (by simp) ?_ (.inl rfl)
      simp [pendingCloses, functor_calls_count]

theorem step_disconnected {platform : Platform} {before after : Config} {label : Label}
    (disconnected : before.Disconnected) (moves : before.Moves platform label after) :
    after.Disconnected := by
  unfold Disconnected at disconnected ⊢
  cases moves with
  | enter call idle entry => exact disconnected
  | leave rest stack => exact disconnected
  | dispatch functor others stack => exact disconnected
  | advance ctl call rest stack running =>
      have change := before.endpoint.execute_change platform ctl call
      unfold Config.advance
      generalize before.endpoint.execute platform ctl call = outcome at change ⊢
      cases change with
      | event revents read write => exact disconnected
      | message data after kept state => exact state.trans disconnected
      | quiet _ after calls kept state handed closing =>
          rcases state with same | left
          · exact same.trans disconnected
          · rw [disconnected] at left
            cases left.1
      | queued message write after updated state alive => exact state.trans disconnected
      | drained write after writing updated state => exact state.trans disconnected
      | removed =>
          unfold Endpoint.removeChannel
          split <;> exact disconnected
      | opened after connecting connected updated answer =>
          rw [disconnected] at connecting
          cases connecting
      | openingFailed after connecting connected updated =>
          rw [disconnected] at connecting
          cases connecting
      | closed _ after last alive gone updated origin => exact gone
      | closeDelivered => exact disconnected

theorem create_lifecycle (address : Nat) (fd : Int) (poller : EPollPoller)
    (writeComplete highWaterMark : Bool) :
    (Config.create (.create address fd poller writeComplete highWaterMark)).Lifecycle :=
  ⟨Nat.zero_le _, fun _ => rfl, Nat.zero_le _, fun _ => rfl, nofun, Nat.le_refl _, .nil⟩

theorem run_lifecycle {platform : Platform} {address : Nat} {fd : Int} {poller : EPollPoller}
    {writeComplete highWaterMark : Bool} {labels : List Label} {config : Config}
    (run : (connectionMachine platform).Transitions
      (.create (.create address fd poller writeComplete highWaterMark)) labels config) :
    config.Lifecycle :=
  run.invariant (fun _ _ _ holds taken => step_lifecycle holds (step_moves taken))
    (create_lifecycle address fd poller writeComplete highWaterMark)

/-- In every run, down, close and up are delivered at most once, no up follows a down,
and from a disconnected state only disconnected states are reached. -/
theorem callbacks_at_most_once (platform : Platform) (address : Nat) (fd : Int)
    (poller : EPollPoller) (writeComplete highWaterMark : Bool) (labels : List Label)
    (config : Config)
    (run : (connectionMachine platform).Transitions
      (.create (.create address fd poller writeComplete highWaterMark)) labels config) :
    config.downs ≤ 1 ∧ config.closes ≤ 1 ∧ config.ups ≤ 1 ∧ config.NoUpAfterDown ∧
      (config.Disconnected → ∀ later,
        (connectionMachine platform).Reaches config later → later.Disconnected) := by
  have lifecycle := run_lifecycle run
  refine ⟨lifecycle.downs_le, ?_, lifecycle.ups_le, lifecycle.ordered, ?_⟩
  · have paid := lifecycle.closes_le
    have downsLe := lifecycle.downs_le
    omega
  · intro disconnected later reaches
    exact reaches.invariant
      (fun _ _ _ holds taken => step_disconnected holds (step_moves taken))
      disconnected

/-- A close from inside the up callback: up, down and close run once each. -/
theorem callbacks_at_most_once_nested :
    ∃ config, Machine.runPartial (Config.step .posix)
        (.create (.create 1 5 .empty false false))
        [.enter .connectEstablished, .advance true, .enter .forceCloseInLoop, .advance true,
          .advance true, .leave, .advance true, .leave, .leave] = some config ∧
      config.log = [.connectionCallback true, .connectionCallback false, .closeCallback] ∧
      config.downs ≤ 1 := by
  have logged : (Machine.runPartial (Config.step .posix)
      (.create (.create 1 5 .empty false false))
      [.enter .connectEstablished, .advance true, .enter .forceCloseInLoop, .advance true,
        .advance true, .leave, .advance true, .leave, .leave]).map Config.log =
      some [.connectionCallback true, .connectionCallback false, .closeCallback] := by
    decide +kernel
  rcases Option.map_eq_some_iff.mp logged with ⟨config, ran, log⟩
  exact ⟨config, ran, log, (callbacks_at_most_once .posix 1 5 .empty false false _ config
    (Machine.transitions_of_runPartial ran)).1⟩

end MyBookSources.Net
