import MyBookSources.Net.PollerEquivalence

/-! # Failing updates of the epoll poller

`EPollPoller::updateChannel` against a kernel with its own rules: a descriptor can be
entered into the interest list only once, and changed or erased only while it is in the
list. What the rules allow may still fail.
-/

namespace MyBookSources.Net

namespace EPollPoller

/-- What `epoll_ctl` requires of the interest list. -/
def accepts (poller : EPollPoller) (operation : CtlOperation) (fd : Int) : Bool :=
  match operation with
  | .XEPOLL_CTL_ADD => (poller.registered fd).isNone
  | .XEPOLL_CTL_MOD => (poller.registered fd).isSome
  | .XEPOLL_CTL_DEL => (poller.registered fd).isSome

/-- Whether `epoll_ctl` succeeds; `willing` says that nothing but the rules is in its way. -/
def epollCtl (poller : EPollPoller) (operation : CtlOperation) (fd : Int) (willing : Bool) :
    Bool :=
  willing && poller.accepts operation fd

/-- A member function of the channel that changes its events, down to `epoll_ctl`. -/
def callChannel (poller : EPollPoller) (channel : Channel) (change : Channel.EventChange)
    (willing : Bool) : Updated :=
  let changed := channel.change change
  poller.updateChannel changed
    ((poller.issued changed).any (poller.epollCtl · changed.fd willing))

/-- The interest list has the descriptor with the channel's events, or not at all for a
channel without events. -/
def Reflects (poller : EPollPoller) (channel : Channel) : Prop :=
  poller.registered channel.fd = if channel.isNoneEvent then none else some channel.events

/-- A call that answers `false` has left the map, the interest list and the index alone, and
where it comes to `epoll_ctl` again, with nothing in its way, it succeeds. -/
def Atomic (poller : EPollPoller) (channel : Channel) (change : Channel.EventChange)
    (willing : Bool) : Prop :=
  let called := poller.callChannel channel change willing
  called.answer = false →
    called.poller.channels = poller.channels ∧
      called.channel.index = channel.index ∧
      called.poller.registered = poller.registered ∧
      ((called.poller.issued (called.channel.change change)).isSome = true →
        let retried := called.poller.callChannel called.channel change true
        retried.answer = true ∧ retried.poller.Reflects retried.channel)

/-- A call whose `epoll_ctl` fails does not enter the descriptor, and the descriptor is in
the interest list. -/
def FailsWatched (poller : EPollPoller) (channel : Channel) (change : Channel.EventChange)
    (willing : Bool) : Prop :=
  let changed := channel.change change
  ∀ operation, poller.issued changed = some operation →
    poller.epollCtl operation changed.fd willing = false →
    operation ≠ .XEPOLL_CTL_ADD ∧ poller.registered changed.fd ≠ none

/-! ## The interest list -/

theorem update_registered_of_ne (poller : EPollPoller) (operation : CtlOperation)
    (channel : Channel) (succeeds : Bool) {fd : Int} (different : fd ≠ channel.fd) :
    (poller.update operation channel succeeds).2.registered fd = poller.registered fd := by
  cases succeeds with
  | false => rfl
  | true => exact Function.update_of_ne different _ _

/-- A descriptor that is entered or changed is in the list afterwards, if it was before or the
call succeeds. -/
theorem update_registered_ne_none {poller : EPollPoller} {operation : CtlOperation}
    (notErases : operation ≠ .XEPOLL_CTL_DEL) {channel : Channel} {succeeds : Bool}
    (watched : succeeds = true ∨ poller.registered channel.fd ≠ none) :
    (poller.update operation channel succeeds).2.registered channel.fd ≠ none := by
  cases succeeds with
  | false => exact watched.resolve_left Bool.false_ne_true
  | true =>
      intro absent
      cases operation with
      | XEPOLL_CTL_ADD | XEPOLL_CTL_MOD =>
          have entry := (Function.update_self ..).symm.trans absent
          cases entry
      | XEPOLL_CTL_DEL => exact notErases rfl

/-! ## One call -/

section Call

variable {poller : EPollPoller} {channel : Channel} {change : Channel.EventChange}

theorem callChannel_of_refused
    (refused : ∀ succeeds, poller.updateChannel (channel.change change) succeeds =
      ⟨false, poller, channel.change change⟩) (willing : Bool) :
    poller.callChannel channel change willing = ⟨false, poller, channel.change change⟩ :=
  refused _

theorem callChannel_of_issued {operation : CtlOperation}
    (issued : poller.issued (channel.change change) = some operation) (willing : Bool) :
    poller.callChannel channel change willing =
      poller.updateChannel (channel.change change)
        (poller.epollCtl operation channel.fd willing) := by
  rw [callChannel, issued, Option.any_some, Channel.change_fd]

theorem atomic_of_kept {willing : Bool}
    (kept : poller.callChannel channel change willing = ⟨false, poller, channel.change change⟩) :
    poller.Atomic channel change willing ↔
      ((poller.issued (channel.change change)).isSome = true →
        let retried := poller.callChannel channel change true
        retried.answer = true ∧ retried.poller.Reflects retried.channel) := by
  have again : poller.callChannel (channel.change change) change true =
      poller.callChannel channel change true := by
    rw [callChannel, callChannel, Channel.change_change]
  unfold Atomic
  rw [kept]
  dsimp only
  rw [Channel.change_change, again, Channel.change_index]
  constructor
  · intro atomic
    exact (atomic rfl).2.2.2
  · intro retried _
    exact ⟨rfl, rfl, rfl, retried⟩

theorem failsWatched_of_issued {operation : CtlOperation}
    (issued : poller.issued (channel.change change) = some operation) {willing : Bool} :
    poller.FailsWatched channel change willing ↔
      (poller.epollCtl operation channel.fd willing = false →
        operation ≠ .XEPOLL_CTL_ADD ∧ poller.registered channel.fd ≠ none) := by
  unfold FailsWatched
  dsimp only
  rw [issued, Channel.change_fd]
  constructor
  · intro each
    exact each operation rfl
  · intro fails other same
    cases same
    exact fails

theorem atomic_of_issued {operation : CtlOperation}
    (issued : poller.issued (channel.change change) = some operation)
    (notEnters : operation ≠ .XEPOLL_CTL_ADD)
    (fails : poller.updateChannel (channel.change change) false =
      ⟨false, poller, channel.change change⟩)
    (succeeds : (poller.updateChannel (channel.change change) true).answer = true ∧
      (poller.updateChannel (channel.change change) true).poller.Reflects
        (poller.updateChannel (channel.change change) true).channel) {willing : Bool} :
    poller.Atomic channel change willing ↔ poller.FailsWatched channel change willing := by
  have rules : poller.epollCtl operation channel.fd true =
      (poller.registered channel.fd).isSome := by
    cases operation with
    | XEPOLL_CTL_ADD => exact absurd rfl notEnters
    | XEPOLL_CTL_MOD => rfl
    | XEPOLL_CTL_DEL => rfl
  rw [failsWatched_of_issued issued]
  cases answer : poller.epollCtl operation channel.fd willing with
  | true =>
      have answered : (poller.callChannel channel change willing).answer = true := by
        rw [callChannel_of_issued issued, answer]
        exact succeeds.1
      constructor
      · intro _ failed
        cases failed
      · intro _ refused
        rw [answered] at refused
        cases refused
  | false =>
      rw [atomic_of_kept (by rw [callChannel_of_issued issued, answer, fails]), issued,
        callChannel_of_issued issued, rules]
      cases watched : poller.registered channel.fd with
      | none =>
          constructor
          · intro retried
            have answered := (retried rfl).1
            rw [Option.isSome_none, fails] at answered
            cases answered
          · intro each
            exact absurd rfl (each rfl).2
      | some events =>
          constructor
          · intro _ _
            exact ⟨notEnters, nofun⟩
          · intro _ _
            exact succeeds

/-- A call is atomic unless its `epoll_ctl` fails to enter the descriptor, or fails for
want of it. -/
theorem atomic_iff (poller : EPollPoller) (channel : Channel) (change : Channel.EventChange)
    (willing : Bool) :
    poller.Atomic channel change willing ↔ poller.FailsWatched channel change willing := by
  cases issues poller (channel.change change) with
  | refuses none refused =>
      rw [atomic_of_kept (refused _)]
      constructor
      · intro _ operation issued
        rw [none] at issued
        cases issued
      · intro _ issued
        rw [none] at issued
        cases issued
  | enters issued room entered =>
      have notAdded : channel.index ≠ kAdded := by
        rw [Channel.change_index] at room
        rcases room with ⟨new, _⟩ | ⟨deleted, _⟩
        · rw [new]
          decide
        · rw [deleted]
          decide
      rw [failsWatched_of_issued issued]
      cases answer : poller.epollCtl .XEPOLL_CTL_ADD channel.fd willing with
      | true =>
          constructor
          · intro _ failed
            cases failed
          · intro _ refused
            rw [callChannel_of_issued issued, answer, entered] at refused
            cases refused
      | false =>
          constructor
          · intro atomic
            unfold Atomic at atomic
            rw [callChannel_of_issued issued, answer, entered] at atomic
            exact absurd (atomic rfl).2.1.symm notAdded
          · intro watched
            exact absurd rfl (watched rfl).1
  | modifies issued added mapped enabled modified =>
      apply atomic_of_issued issued nofun (modified false)
      rw [modified]
      constructor
      · rfl
      · unfold Reflects
        rw [enabled]
        exact Function.update_self ..
  | erases issued added mapped none erased =>
      apply atomic_of_issued issued nofun (erased false)
      rw [erased]
      constructor
      · rfl
      · have empty : Channel.isNoneEvent
            { channel.change change with index := kDeleted } = true := none
        unfold Reflects
        rw [if_pos rfl, empty]
        exact Function.update_self ..

end Call

end EPollPoller

/-! ## Runs against the kernel -/

/-- A call on the channel at an address; `willing` is for the `epoll_ctl` that it may come
to. -/
structure KernelCall where
  address : Nat
  call : ChannelCall
  willing : Bool
  deriving DecidableEq

namespace PollerSystem

variable {system : PollerSystem EPollPoller} {label : KernelCall}

def stepKernel (system : PollerSystem EPollPoller) (label : KernelCall) :
    PollerSystem EPollPoller × Option Bool :=
  let channel := system.channels label.address
  match label.call with
  | .change change =>
      let updated := system.poller.callChannel channel change label.willing
      (⟨updated.poller, Function.update system.channels label.address updated.channel⟩,
        some updated.answer)
  | .remove =>
      if channel.isNoneEvent = false then (system, none)
      else
        let removed := system.poller.removeChannel channel
          (system.poller.epollCtl .XEPOLL_CTL_DEL channel.fd label.willing)
        (⟨removed.1, Function.update system.channels label.address removed.2⟩, none)

def nextKernel (system : PollerSystem EPollPoller) (label : KernelCall) :
    Option (PollerSystem EPollPoller) :=
  some (system.stepKernel label).1

/-- The call, if it changes events, is atomic. -/
def AtomicCall (system : PollerSystem EPollPoller) (label : KernelCall) : Prop :=
  ∀ change, label.call = .change change →
    system.poller.Atomic (system.channels label.address) change label.willing

/-- No `XEPOLL_CTL_ADD` of the call fails. -/
def Enters (system : PollerSystem EPollPoller) (label : KernelCall) : Prop :=
  ∀ change, label.call = .change change →
    let changed := (system.channels label.address).change change
    system.poller.issued changed = some .XEPOLL_CTL_ADD →
      system.poller.epollCtl .XEPOLL_CTL_ADD changed.fd label.willing = true

theorem enters_of_atomicCall (atomic : system.AtomicCall label) : system.Enters label := by
  intro change called changed issued
  have watched := (EPollPoller.atomic_iff ..).mp (atomic change called)
  by_contra failed
  rw [Bool.not_eq_true] at failed
  exact absurd rfl (watched .XEPOLL_CTL_ADD issued failed).1

structure Watched (system : PollerSystem EPollPoller) : Prop where
  address : ∀ address, (system.channels address).address = address
  registered : ∀ address, (system.channels address).index = kAdded →
    system.poller.channels (system.channels address).fd = some address →
    system.poller.registered (system.channels address).fd ≠ none

theorem create_watched (fds : Nat → Int) : Watched (create EPollPoller.empty fds) where
  address _ := rfl
  registered _ _ mapped := by cases mapped

theorem atomicCall_of_enters (watched : Watched system) (enters : system.Enters label) :
    system.AtomicCall label := by
  intro change called
  apply (EPollPoller.atomic_iff ..).mpr
  intro operation issued failed
  have known (added : ((system.channels label.address).change change).index = kAdded)
      (mapped : system.poller.channels ((system.channels label.address).change change).fd =
        some ((system.channels label.address).change change).address) :
      system.poller.registered ((system.channels label.address).change change).fd ≠ none := by
    rw [Channel.change_index] at added
    rw [Channel.change_fd, Channel.change_address, watched.address] at mapped
    rw [Channel.change_fd]
    exact watched.registered label.address added mapped
  cases EPollPoller.issues system.poller ((system.channels label.address).change change) with
  | refuses none _ =>
      rw [none] at issued
      cases issued
  | enters entering _ _ =>
      rw [entering] at issued
      cases issued
      rw [enters change called entering] at failed
      cases failed
  | modifies modifying added mapped _ _ =>
      rw [modifying] at issued
      cases issued
      exact ⟨nofun, known added mapped⟩
  | erases erasing added mapped _ _ =>
      rw [erasing] at issued
      cases issued
      exact ⟨nofun, known added mapped⟩

theorem Watched.replace (watched : Watched system) {poller : EPollPoller} {address : Nat}
    {channel : Channel} (sameAddress : channel.address = address)
    (others : ∀ fd other, other ≠ address → poller.channels fd = some other →
      system.poller.channels fd = some other ∧
        poller.registered fd = system.poller.registered fd)
    (own : channel.index = kAdded → poller.channels channel.fd = some address →
      poller.registered channel.fd ≠ none) :
    Watched ⟨poller, Function.update system.channels address channel⟩ where
  address := by
    apply (Function.forall_update_iff system.channels
      fun other (replaced : Channel) => replaced.address = other).mpr
    exact ⟨sameAddress, fun other _ => watched.address other⟩
  registered := by
    apply (Function.forall_update_iff system.channels
      fun other (replaced : Channel) => replaced.index = kAdded →
        poller.channels replaced.fd = some other → poller.registered replaced.fd ≠ none).mpr
    constructor
    · exact own
    · intro other different added mapped
      rcases others _ other different mapped with ⟨before, same⟩
      rw [same]
      exact watched.registered other added before

theorem Watched.keep (watched : Watched system) {address : Nat} {channel : Channel}
    (sameAddress : channel.address = (system.channels address).address)
    (sameFd : channel.fd = (system.channels address).fd)
    (sameIndex : channel.index = (system.channels address).index) :
    Watched ⟨system.poller, Function.update system.channels address channel⟩ := by
  apply watched.replace
  · rw [sameAddress, watched.address]
  · intro _ _ _ mapped
    exact ⟨mapped, rfl⟩
  · rw [sameFd, sameIndex]
    exact watched.registered address

theorem Watched.update (watched : Watched system) {address : Nat} {changed channel : Channel}
    (sameAddress : channel.address = address) (sameFd : channel.fd = changed.fd)
    {entered : EPollPoller}
    (off : ∀ fd, fd ≠ changed.fd → entered.channels fd = system.poller.channels fd)
    (interest : entered.registered = system.poller.registered)
    (owned : entered.channels changed.fd = none ∨ entered.channels changed.fd = some address)
    (operation : CtlOperation) (succeeds : Bool)
    (own : channel.index = kAdded →
      (entered.update operation changed succeeds).2.registered changed.fd ≠ none) :
    Watched ⟨(entered.update operation changed succeeds).2,
      Function.update system.channels address channel⟩ := by
  apply watched.replace sameAddress
  · intro fd other different mapped
    rw [EPollPoller.update_channels] at mapped
    by_cases here : fd = changed.fd
    · rw [here] at mapped
      exact absurd mapped (ne_of_owned owned different)
    · rw [EPollPoller.update_registered_of_ne _ _ _ _ here, interest, ← off fd here]
      exact ⟨mapped, rfl⟩
  · rw [sameFd]
    intro added _
    exact own added

theorem Watched.change (watched : Watched system) {address : Nat}
    {change : Channel.EventChange} {willing : Bool}
    (enters : system.Enters ⟨address, .change change, willing⟩) :
    Watched (system.stepKernel ⟨address, .change change, willing⟩).1 := by
  have sameAddress : ((system.channels address).change change).address = address := by
    rw [Channel.change_address, watched.address]
  have kept := @Watched.keep system watched address ((system.channels address).change change)
    (Channel.change_address ..) (Channel.change_fd ..) (Channel.change_index ..)
  change Watched ⟨(system.poller.callChannel (system.channels address) change willing).poller,
    Function.update system.channels address
      (system.poller.callChannel (system.channels address) change willing).channel⟩
  cases EPollPoller.issues system.poller ((system.channels address).change change) with
  | refuses _ refused =>
      rw [EPollPoller.callChannel_of_refused refused]
      exact kept
  | enters issued _ entered =>
      have answer := enters change rfl issued
      rw [Channel.change_fd] at answer
      rw [EPollPoller.callChannel_of_issued issued, answer, entered]
      apply watched.update
      · exact sameAddress
      · rfl
      · intro fd different
        exact Function.update_of_ne different _ _
      · rfl
      · rw [sameAddress]
        exact .inr (Function.update_self ..)
      · intro _
        apply EPollPoller.update_registered_ne_none
        · nofun
        · exact .inl rfl
  | modifies issued added mapped _ modified =>
      rw [sameAddress] at mapped
      rw [EPollPoller.callChannel_of_issued issued, modified]
      apply watched.update
      · exact sameAddress
      · rfl
      · exact fun _ _ => rfl
      · rfl
      · exact .inr mapped
      · intro _
        rw [Channel.change_index] at added
        rw [Channel.change_fd] at mapped
        apply EPollPoller.update_registered_ne_none
        · nofun
        · rw [Channel.change_fd]
          exact .inr (watched.registered address added mapped)
  | erases issued _ mapped _ erased =>
      rw [sameAddress] at mapped
      rw [EPollPoller.callChannel_of_issued issued, erased]
      cases system.poller.epollCtl .XEPOLL_CTL_DEL (system.channels address).fd willing with
      | false => exact kept
      | true =>
          apply watched.update
          · exact sameAddress
          · rfl
          · exact fun _ _ => rfl
          · rfl
          · exact .inr mapped
          · intro indexed
            have same : kDeleted = kAdded := indexed
            exact absurd same (by decide)

theorem Watched.remove (watched : Watched system) (address : Nat) (willing : Bool) :
    Watched (system.stepKernel ⟨address, .remove, willing⟩).1 := by
  unfold stepKernel
  dsimp only
  split
  · exact watched
  · rcases EPollPoller.removeChannel_cases system.poller (system.channels address)
      (system.poller.epollCtl .XEPOLL_CTL_DEL (system.channels address).fd willing) with
      same | ⟨erases, removed⟩
    · rw [same]
      exact watched.keep rfl rfl rfl
    · rw [removed]
      apply watched.update
      · exact watched.address address
      · rfl
      · intro fd different
        exact Function.update_of_ne different _ _
      · rfl
      · exact .inl (Function.update_self ..)
      · intro indexed
        have same : kNew = kAdded := indexed
        exact absurd same (by decide)

theorem Watched.step (watched : Watched system) (enters : system.Enters label) :
    Watched (system.stepKernel label).1 := by
  rcases label with ⟨address, call, willing⟩
  cases call with
  | change change => exact watched.change enters
  | remove => exact watched.remove address willing

theorem Placed.watched {map : Int → Option Nat} {registered : Int → Option Events}
    {events : List EpollEvent} {channel : Channel}
    (placed : Placed map registered events channel) (added : channel.index = kAdded) :
    registered channel.fd = some channel.events := by
  cases placed with
  | new new _ => exact absurd (new.symm.trans added) (by decide)
  | added _ _ watched _ => exact watched
  | deleted deleted _ _ _ => exact absurd (deleted.symm.trans added) (by decide)

theorem Placed.unwatched {map : Int → Option Nat} {registered : Int → Option Events}
    {events : List EpollEvent} {channel : Channel}
    (placed : Placed map registered events channel) (deleted : channel.index = kDeleted) :
    registered channel.fd = none := by
  cases placed with
  | new new _ => exact absurd (new.symm.trans deleted) (by decide)
  | added added _ _ _ => exact absurd (added.symm.trans deleted) (by decide)
  | deleted _ _ absent _ => exact absent

/-- A willing kernel's rules stand in the way of no call on a poller that has kept in step
with them. -/
theorem stepKernel_of_related {right : PollerSystem SelectPoller} (related : Related system right)
    (address : Nat) (call : ChannelCall) :
    system.stepKernel ⟨address, call, true⟩ = system.stepEPoll (address, call) := by
  have placed := related.placed address
  cases call with
  | change change =>
      have called : system.poller.callChannel (system.channels address) change true =
          system.poller.updateChannel ((system.channels address).change change) true := by
        cases EPollPoller.issues system.poller ((system.channels address).change change) with
        | refuses _ refused =>
            rw [EPollPoller.callChannel_of_refused refused, refused]
        | enters issued room _ =>
            have absent : system.poller.registered (system.channels address).fd = none := by
              rw [Channel.change_index, Channel.change_fd] at room
              rcases room with ⟨_, free⟩ | ⟨deleted, _⟩
              · exact related.unregistered _ free
              · exact placed.unwatched deleted
            rw [EPollPoller.callChannel_of_issued issued]
            simp [EPollPoller.epollCtl, EPollPoller.accepts, absent]
        | modifies issued added _ _ _ =>
            rw [Channel.change_index] at added
            rw [EPollPoller.callChannel_of_issued issued]
            simp [EPollPoller.epollCtl, EPollPoller.accepts, placed.watched added]
        | erases issued added _ _ _ =>
            rw [Channel.change_index] at added
            rw [EPollPoller.callChannel_of_issued issued]
            simp [EPollPoller.epollCtl, EPollPoller.accepts, placed.watched added]
      simp only [stepKernel, stepEPoll, called]
  | remove =>
      have removed : system.poller.removeChannel (system.channels address)
            (system.poller.epollCtl .XEPOLL_CTL_DEL (system.channels address).fd true) =
          system.poller.removeChannel (system.channels address) true := by
        by_cases added : (system.channels address).index = kAdded
        · simp [EPollPoller.epollCtl, EPollPoller.accepts, placed.watched added]
        · simp [EPollPoller.removeChannel, added]
      simp only [stepKernel, stepEPoll, removed]

end PollerSystem

/-- From the start, a kernel that is always willing answers as if it had no rules. -/
theorem willing_kernel_agrees (fds : Nat → Int) (calls : List (Nat × ChannelCall)) :
    Machine.runOutputs (fun system label => system.stepKernel ⟨label.1, label.2, true⟩)
        (PollerSystem.create EPollPoller.empty fds) calls =
      Machine.runOutputs PollerSystem.stepEPoll
        (PollerSystem.create EPollPoller.empty fds) calls := by
  have each (left right : PollerSystem EPollPoller) (label : Nat × ChannelCall)
      (same : left = right ∧ ∃ select, PollerSystem.Related right select) :
      (left.stepKernel ⟨label.1, label.2, true⟩).2 = (right.stepEPoll label).2 ∧
        (left.stepKernel ⟨label.1, label.2, true⟩).1 = (right.stepEPoll label).1 ∧
        ∃ select, PollerSystem.Related (right.stepEPoll label).1 select := by
    rcases same with ⟨rfl, select, related⟩
    rw [PollerSystem.stepKernel_of_related related]
    exact ⟨rfl, rfl, _, (related.step label).2⟩
  have run := Machine.runOutputs_related each
    ⟨rfl, _, PollerSystem.create_related fds⟩ calls
  exact Prod.ext run.2.1 run.1

/-- In every state that a run reaches, a call on a channel is atomic unless its `epoll_ctl`
fails to enter the descriptor or finds it missing; and a run is one of atomic calls exactly
when none of them fails to enter a descriptor. -/
theorem updateChannel_atomic_iff (fds : Nat → Int) (calls : List KernelCall) :
    let start := PollerSystem.create EPollPoller.empty fds
    let reached := (Machine.runOutputs PollerSystem.stepKernel start calls).1
    (∀ address change willing,
      reached.poller.Atomic (reached.channels address) change willing ↔
        reached.poller.FailsWatched (reached.channels address) change willing) ∧
      (Machine.RunPermits PollerSystem.nextKernel PollerSystem.AtomicCall start calls ↔
        Machine.RunPermits PollerSystem.nextKernel PollerSystem.Enters start calls) := by
  intro start reached
  constructor
  · intro address change willing
    exact EPollPoller.atomic_iff ..
  · constructor
    · apply Machine.RunPermits.imp
      · intro system label (_ : True) atomic
        exact PollerSystem.enters_of_atomicCall atomic
      · intro _ _ _ _ _ _
        trivial
      · trivial
    · apply Machine.RunPermits.imp
      · intro system label watched enters
        exact PollerSystem.atomicCall_of_enters watched enters
      · intro system label next watched enters taken
        cases taken
        exact watched.step enters
      · exact PollerSystem.create_watched fds

/-- A new channel that `epoll_ctl` does not take stands in the map as added, outside the
interest list; enabling it again, the poller tries to change what is not there. -/
theorem unentered_channel_is_lost :
    let start := PollerSystem.create EPollPoller.empty Nat.cast
    let failed := start.poller.callChannel (start.channels 5) .enableReading false
    let retried := failed.poller.callChannel failed.channel .enableReading true
    ¬ start.poller.Atomic (start.channels 5) .enableReading false ∧
      failed.answer = false ∧ failed.poller.channels 5 = some 5 ∧
      failed.channel.index = kAdded ∧ failed.poller.registered 5 = none ∧
      retried.answer = false ∧ retried.poller.registered 5 = none := by
  refine ⟨?_, rfl, rfl, rfl, rfl, rfl, rfl⟩
  intro atomic
  exact absurd (atomic rfl).2.1 (by decide)

end MyBookSources.Net
