import MyBookSources.Foundation.Accumulation
import MyBookSources.Foundation.SortedMap
import MyBookSources.Net.PollerEquivalence

/-! # What select reports and what a channel is told

`SelectPoller::poll` with `fillActiveChannels`, and `Channel::handleEvent`, which runs the
callbacks. The other pollers assign `revents_`; this one adds to it, and nothing clears it.
-/

namespace MyBookSources.Net

/-! ## The callbacks of a channel -/

namespace Channel

def addRevents (channel : Channel) (revt : Events) : Channel :=
  { channel with revents := channel.revents ||| revt }

inductive Callback
  | closeCallback
  | errorCallback
  | readCallback
  | writeCallback
  deriving DecidableEq

/-- What else decides about the callbacks: `tied_`, whether `tie_` can be locked, and which
callbacks have been set. -/
structure Handlers where
  tied : Bool
  locks : Bool
  isSet : Callback → Bool

def handleEventWithGuard (handlers : Handlers) (revents : Events) : List Callback :=
  (if revents.has XPOLLHUP && !revents.has XPOLLIN && handlers.isSet .closeCallback then
    [.closeCallback] else []) ++
  (if revents.has (XPOLLERR ||| XPOLLNVAL) && handlers.isSet .errorCallback then
    [.errorCallback] else []) ++
  (if revents.has (XPOLLIN ||| XPOLLPRI ||| XPOLLRDHUP) && handlers.isSet .readCallback then
    [.readCallback] else []) ++
  (if revents.has XPOLLOUT && handlers.isSet .writeCallback then [.writeCallback] else [])

def handleEvent (handlers : Handlers) (revents : Events) : List Callback :=
  if handlers.tied then
    if handlers.locks then handleEventWithGuard handlers revents else []
  else handleEventWithGuard handlers revents

variable {handlers : Handlers} {revents : Events}

theorem mem_of_handleEvent {callback : Callback}
    (member : callback ∈ handleEvent handlers revents) :
    callback ∈ handleEventWithGuard handlers revents := by
  rw [handleEvent] at member
  split at member
  · split at member
    · exact member
    · cases member
  · exact member

theorem readCallback_mem (member : .readCallback ∈ handleEvent handlers revents) :
    revents.has (XPOLLIN ||| XPOLLPRI ||| XPOLLRDHUP) = true := by
  have guarded := mem_of_handleEvent member
  by_contra missing
  rw [Bool.not_eq_true] at missing
  simp [handleEventWithGuard, missing] at guarded

theorem writeCallback_mem (member : .writeCallback ∈ handleEvent handlers revents) :
    revents.has XPOLLOUT = true := by
  have guarded := mem_of_handleEvent member
  by_contra missing
  rw [Bool.not_eq_true] at missing
  simp [handleEventWithGuard, missing] at guarded

end Channel

/-! ## One round -/

/-- What `select` leaves: its result, and which descriptors stay in the sets it is given. -/
structure SelectRound where
  numEvents : Int
  readable : Int → Bool
  writable : Int → Bool

namespace SelectRound

def reported (readfds writefds : Int → Bool) (fd : Int) : Events :=
  (if readfds fd then XPOLLIN else 0) ||| (if writefds fd then XPOLLOUT else 0)

end SelectRound

namespace SelectPoller

/-- The loop over `channels_`: the channels, and the addresses put into `activeChannels`. -/
def fillActiveChannels (numEvents : Int) (readfds writefds : Int → Bool) :
    Int → List (Int × Nat) → (Nat → Channel) → (Nat → Channel) × List Nat
  | _, [], channels => (channels, [])
  | currentCount, (fd, address) :: rest, channels =>
      let read := if readfds fd then
          Function.update channels address ((channels address).addRevents XPOLLIN)
        else channels
      let written := if writefds fd then
          Function.update read address ((read address).addRevents XPOLLOUT)
        else read
      let eventTriggered := readfds fd || writefds fd
      if eventTriggered then
        if numEvents ≤ currentCount + 1 then (written, [address])
        else
          let filled := fillActiveChannels numEvents readfds writefds (currentCount + 1) rest
            written
          (filled.1, address :: filled.2)
      else fillActiveChannels numEvents readfds writefds currentCount rest written

/-- The vector of events doubles when as many events happened as it has entries. A new entry
has a null pointer, the address at which no channel stands. -/
def grown (poller : SelectPoller) (numEvents : Int) : SelectPoller :=
  if numEvents = poller.events.length then
    { poller with events := poller.events ++ List.replicate poller.events.length ⟨0, 0⟩ }
  else poller

end SelectPoller

namespace SelectPoller

@[simp] theorem grown_channels (poller : SelectPoller) (numEvents : Int) :
    (poller.grown numEvents).channels = poller.channels := by
  rw [grown]
  split <;> rfl

section Fill

variable (readfds writefds : Int → Bool)

/-- The channels that a round of at most `limit` events reaches, each with what is reported
for its descriptor. -/
def reports (limit : Nat) (entries : List (Int × Nat)) : List (Nat × Events) :=
  ((entries.filter fun entry => readfds entry.1 || writefds entry.1).take limit).map
    fun entry => (entry.2, SelectRound.reported readfds writefds entry.1)

/-- The channels with the reports added to their `revents_`. -/
def addReports (channels : Nat → Channel) (reports : List (Nat × Events)) : Nat → Channel :=
  fun address => { channels address with
    revents := Accumulation.collect (· ||| ·) (fun other => (channels other).revents) reports
      address }

theorem addReports_cons (channels : Nat → Channel) (report : Nat × Events)
    (reports : List (Nat × Events)) :
    addReports channels (report :: reports) =
      addReports (Function.update channels report.1
        ((channels report.1).addRevents report.2)) reports := by
  have held : (fun other => (Function.update channels report.1
      ((channels report.1).addRevents report.2) other).revents) =
      Function.update (fun other => (channels other).revents) report.1
        ((channels report.1).revents ||| report.2) := by
    funext other
    by_cases same : other = report.1
    · rw [same, Function.update_self, Function.update_self]
      rfl
    · rw [Function.update_of_ne same, Function.update_of_ne same]
  funext address
  rw [addReports, addReports, Accumulation.collect, held]
  by_cases same : address = report.1
  · rw [same, Function.update_self]
    rfl
  · rw [Function.update_of_ne same]

theorem marked_eq (channels : Nat → Channel) (fd : Int) (address : Nat) :
    (let read := if readfds fd then
        Function.update channels address ((channels address).addRevents XPOLLIN)
      else channels
    if writefds fd then
      Function.update read address ((read address).addRevents XPOLLOUT)
    else read) =
      Function.update channels address ((channels address).addRevents
        (SelectRound.reported readfds writefds fd)) := by
  cases reads : readfds fd <;> cases writes : writefds fd <;>
    simp [SelectRound.reported, reads, writes, Channel.addRevents, BitVec.or_assoc]

variable {readfds writefds}

theorem reports_cons_of_triggered {fd : Int} (triggered : (readfds fd || writefds fd) = true)
    (limit address : Nat) (entries : List (Int × Nat)) :
    reports readfds writefds (limit + 1) ((fd, address) :: entries) =
      (address, SelectRound.reported readfds writefds fd) ::
        reports readfds writefds limit entries := by
  rw [reports, List.filter_cons, if_pos triggered, List.take_succ_cons, List.map_cons]
  rfl

theorem reports_cons_of_idle {fd : Int} (idle : (readfds fd || writefds fd) = false)
    (limit address : Nat) (entries : List (Int × Nat)) :
    reports readfds writefds limit ((fd, address) :: entries) =
      reports readfds writefds limit entries := by
  rw [reports, List.filter_cons, if_neg (by rw [idle]; decide)]
  rfl

theorem addRevents_of_idle {fd : Int} (idle : (readfds fd || writefds fd) = false)
    (channel : Channel) :
    channel.addRevents (SelectRound.reported readfds writefds fd) = channel := by
  rcases Bool.or_eq_false_iff.mp idle with ⟨reads, writes⟩
  simp [SelectRound.reported, reads, writes, Channel.addRevents]

theorem fillActiveChannels_eq {numEvents currentCount : Int} (below : currentCount < numEvents)
    (entries : List (Int × Nat)) (channels : Nat → Channel) :
    fillActiveChannels numEvents readfds writefds currentCount entries channels =
      (addReports channels (reports readfds writefds (numEvents - currentCount).toNat entries),
        (reports readfds writefds (numEvents - currentCount).toNat entries).map Prod.fst) := by
  induction entries generalizing currentCount channels with
  | nil => rw [reports, List.filter_nil, List.take_nil]; rfl
  | cons entry entries induction =>
      rcases entry with ⟨fd, address⟩
      have marked := marked_eq readfds writefds channels fd address
      rw [fillActiveChannels]
      dsimp only
      rw [marked]
      cases triggered : readfds fd || writefds fd with
      | false =>
          rw [if_neg (by decide), addRevents_of_idle triggered, Function.update_eq_self,
            induction below, reports_cons_of_idle triggered]
      | true =>
          rw [if_pos rfl]
          split
          · next full =>
            have one : (numEvents - currentCount).toNat = 0 + 1 := by omega
            rw [one, reports_cons_of_triggered triggered, addReports_cons]
            rfl
          · next more =>
            have left : (numEvents - currentCount).toNat =
                (numEvents - (currentCount + 1)).toNat + 1 := by omega
            rw [induction (by omega), left, reports_cons_of_triggered triggered,
              addReports_cons]
            rfl

end Fill

theorem update_channels (poller : SelectPoller) (operation : CtlOperation) (channel : Channel) :
    (poller.update operation channel).2.channels = poller.channels := by
  unfold update
  dsimp only
  split <;> rfl

/-- What an update leaves: the map has changed at most by the channel's own entry, and the
channel by its index. -/
structure Framed (poller : SelectPoller) (channel : Channel) (next : SelectPoller)
    (nextChannel : Channel) : Prop where
  entry : next.channels = poller.channels ∨
    (∃ value, next.channels = Function.update poller.channels channel.fd value ∧
      (value = some channel.address ∨ value = none))
  index : ∃ index, nextChannel = { channel with index := index }

theorem updateChannel_framed (poller : SelectPoller) (channel : Channel) :
    Framed poller channel (poller.updateChannel channel).poller
      (poller.updateChannel channel).channel := by
  have kept : ∀ {next : SelectPoller} {nextChannel : Channel}, next.channels = poller.channels →
      (∃ index, nextChannel = { channel with index := index }) →
      Framed poller channel next nextChannel := fun same index => ⟨.inl same, index⟩
  have unchanged : ∃ index, channel = { channel with index := index } := ⟨channel.index, rfl⟩
  rw [updateChannel]
  split
  · split
    · split
      · exact kept rfl unchanged
      · exact ⟨.inr ⟨_, update_channels _ _ _, .inl rfl⟩, _, rfl⟩
    · split
      · exact kept rfl unchanged
      · exact kept (update_channels _ _ _) ⟨_, rfl⟩
  · split
    · exact kept rfl unchanged
    · split
      · dsimp only
        split
        · exact kept (update_channels _ _ _) ⟨_, rfl⟩
        · exact kept (update_channels _ _ _) unchanged
      · exact kept (update_channels _ _ _) unchanged

theorem removeChannel_framed (poller : SelectPoller) (channel : Channel) :
    Framed poller channel (poller.removeChannel channel).1
      (poller.removeChannel channel).2 := by
  rw [removeChannel]
  split
  · exact ⟨.inl rfl, channel.index, rfl⟩
  · split
    · exact ⟨.inl rfl, channel.index, rfl⟩
    · exact ⟨.inr ⟨none, rfl, .inr rfl⟩, _, rfl⟩

end SelectPoller

namespace PollerSystem

/-- What a call on a channel keeps of all channels: what they are, and what has been put into
their `revents_`. -/
structure SameChannels (before after : Nat → Channel) : Prop where
  address : ∀ address, (after address).address = (before address).address
  fd : ∀ address, (after address).fd = (before address).fd
  revents : ∀ address, (after address).revents = (before address).revents

theorem SameChannels.refl (channels : Nat → Channel) : SameChannels channels channels :=
  ⟨fun _ => rfl, fun _ => rfl, fun _ => rfl⟩

theorem SameChannels.update {channels : Nat → Channel} {address : Nat} {channel : Channel}
    (sameAddress : channel.address = (channels address).address)
    (sameFd : channel.fd = (channels address).fd)
    (sameRevents : channel.revents = (channels address).revents) :
    SameChannels channels (Function.update channels address channel) := by
  constructor
  · intro other
    by_cases same : other = address
    · rw [same, Function.update_self, sameAddress]
    · rw [Function.update_of_ne same]
  · intro other
    by_cases same : other = address
    · rw [same, Function.update_self, sameFd]
    · rw [Function.update_of_ne same]
  · intro other
    by_cases same : other = address
    · rw [same, Function.update_self, sameRevents]
    · rw [Function.update_of_ne same]

theorem change_revents (channel : Channel) (change : Channel.EventChange) :
    (channel.change change).revents = channel.revents := by
  cases change <;> rfl

theorem stepSelect_channels (system : PollerSystem SelectPoller) (label : Nat × ChannelCall) :
    SameChannels system.channels (system.stepSelect label).1.channels := by
  rcases label with ⟨address, call⟩
  cases call with
  | change change =>
      rcases (system.poller.updateChannel_framed
        ((system.channels address).change change)).index with ⟨index, updated⟩
      simp only [stepSelect]
      rw [updated]
      exact SameChannels.update (Channel.change_address _ _) (Channel.change_fd _ _)
        (change_revents _ _)
  | remove =>
      rw [stepSelect]
      dsimp only
      split
      · exact SameChannels.refl _
      · rcases (system.poller.removeChannel_framed (system.channels address)).index with
          ⟨index, removed⟩
        dsimp only
        rw [removed]
        exact SameChannels.update rfl rfl rfl

theorem stepSelect_entry (system : PollerSystem SelectPoller) (label : Nat × ChannelCall) :
    (system.stepSelect label).1.poller.channels = system.poller.channels ∨
      ∃ value, (system.stepSelect label).1.poller.channels =
          Function.update system.poller.channels (system.channels label.1).fd value ∧
        (value = some (system.channels label.1).address ∨ value = none) := by
  rcases label with ⟨address, call⟩
  cases call with
  | change change =>
      have framed := (system.poller.updateChannel_framed
        ((system.channels address).change change)).entry
      rw [Channel.change_address, Channel.change_fd] at framed
      exact framed
  | remove =>
      rw [stepSelect]
      dsimp only
      split
      · exact .inl rfl
      · exact (system.poller.removeChannel_framed (system.channels address)).entry

end PollerSystem

/-! ## The loop -/

/-- A select poller with the entries of its map in the order of the descriptors, and the
active channels that are still to be handled. The events beside each are those that `select`
reported for it; the code does not keep them. -/
structure SelectLoop where
  system : PollerSystem SelectPoller
  entries : SortedMap Int Nat
  active : List (Nat × Events)
  mapped : ∀ fd address,
    (fd, address) ∈ entries.entries ↔ system.poller.channels fd = some address
  owned : ∀ fd address, system.poller.channels fd = some address →
    (system.channels address).fd = fd
  addressed : ∀ address, (system.channels address).address = address

namespace SelectLoop

def create (fds : Nat → Int) : SelectLoop where
  system := PollerSystem.create SelectPoller.empty fds
  entries := SortedMap.empty
  active := []
  mapped fd address := by
    constructor
    · intro member
      cases member
    · intro found
      cases found
  owned fd address found := by cases found
  addressed _ := rfl

/-- A call on a channel, with the map's entry for its descriptor brought up to date. -/
def call (loop : SelectLoop) (address : Nat) (call : ChannelCall) : SelectLoop where
  system := (loop.system.stepSelect (address, call)).1
  entries := loop.entries.set (loop.system.channels address).fd
    ((loop.system.stepSelect (address, call)).1.poller.channels
      (loop.system.channels address).fd)
  active := loop.active
  mapped fd other := by
    rw [SortedMap.mem_set]
    split
    · next same =>
      rw [← same]
    · next differ =>
      rw [loop.mapped]
      rcases loop.system.stepSelect_entry (address, call) with kept | ⟨value, changed, _⟩
      · rw [kept]
      · rw [changed, Function.update_of_ne differ]
  owned fd other found := by
    rw [(loop.system.stepSelect_channels (address, call)).fd]
    rcases loop.system.stepSelect_entry (address, call) with kept | ⟨value, changed, own⟩
    · rw [kept] at found
      exact loop.owned fd other found
    · rw [changed] at found
      by_cases same : fd = (loop.system.channels address).fd
      · rw [same, Function.update_self] at found
        rcases own with mine | gone
        · rw [mine, loop.addressed] at found
          cases found
          exact same.symm
        · rw [gone] at found
          cases found
      · rw [Function.update_of_ne same] at found
        exact loop.owned fd other found
  addressed other := by
    rw [(loop.system.stepSelect_channels (address, call)).address]
    exact loop.addressed other

/-- The descriptors that stay in `readfds`. One that found no room in it is not reported. -/
def readfds (loop : SelectLoop) (round : SelectRound) (fd : Int) : Bool :=
  loop.system.poller.readfds loop.system.channels fd && round.readable fd

def writefds (loop : SelectLoop) (round : SelectRound) (fd : Int) : Bool :=
  loop.system.poller.writefds loop.system.channels fd && round.writable fd

def filled (loop : SelectLoop) (round : SelectRound) : (Nat → Channel) × List Nat :=
  SelectPoller.fillActiveChannels round.numEvents (loop.readfds round) (loop.writefds round) 0
    loop.entries.entries loop.system.channels

theorem filled_eq (loop : SelectLoop) {round : SelectRound} (happened : 0 < round.numEvents) :
    loop.filled round =
      let reports := SelectPoller.reports (loop.readfds round) (loop.writefds round)
        round.numEvents.toNat loop.entries.entries
      (SelectPoller.addReports loop.system.channels reports, reports.map Prod.fst) := by
  rw [filled, SelectPoller.fillActiveChannels_eq happened, Int.sub_zero]

/-- `activeChannels` is cleared before each round. A round with no events, or an error, only
writes to the log. -/
def poll (loop : SelectLoop) (round : SelectRound) : SelectLoop :=
  if happened : 0 < round.numEvents then
    { system := ⟨loop.system.poller.grown round.numEvents, (loop.filled round).1⟩
      entries := loop.entries
      active := (loop.filled round).2.map fun address =>
        (address, SelectRound.reported (loop.readfds round) (loop.writefds round)
          (loop.system.channels address).fd)
      mapped := by
        rw [SelectPoller.grown_channels]
        exact loop.mapped
      owned := by
        rw [SelectPoller.grown_channels, loop.filled_eq happened]
        exact loop.owned
      addressed := by
        rw [loop.filled_eq happened]
        exact loop.addressed }
  else { loop with active := [] }

/-- The channels that a round activates, each with the events that `select` reports for its
descriptor. -/
def roundReports (loop : SelectLoop) (round : SelectRound) : List (Nat × Events) :=
  if 0 < round.numEvents then
    SelectPoller.reports (loop.readfds round) (loop.writefds round) round.numEvents.toNat
      loop.entries.entries
  else []

end SelectLoop

/-! ## Runs -/

inductive SelectLabel
  | call (address : Nat) (call : ChannelCall)
  | poll (round : SelectRound)
  | handleEvent (handlers : Channel.Handlers)

/-- A channel in `activeChannels`: what `select` reported for its descriptor in the round, and
its `revents_`. -/
structure Activation where
  address : Nat
  reported : Events
  revents : Events
  deriving DecidableEq

inductive SelectOutput
  | answered (answer : Option Bool)
  | activated (channels : List Activation)
  | handled (reported : Events) (callbacks : List Channel.Callback)
  | idle
  deriving DecidableEq

/-- A channel is told what was reported, and runs the callback of what was reported. -/
def SelectOutput.Right : SelectOutput → Prop
  | .activated channels => ∀ activation ∈ channels, activation.revents = activation.reported
  | .handled reported callbacks =>
      (.readCallback ∈ callbacks → reported.has XPOLLIN = true) ∧
        (.writeCallback ∈ callbacks → reported.has XPOLLOUT = true)
  | .answered _ => True
  | .idle => True

namespace SelectLoop

/-- `handleEvent` is for the first active channel that has not been handled. -/
def step (loop : SelectLoop) : SelectLabel → SelectLoop × SelectOutput
  | .call address call =>
      (loop.call address call, .answered (loop.system.stepSelect (address, call)).2)
  | .poll round =>
      let next := loop.poll round
      (next, .activated (next.active.map fun active =>
        ⟨active.1, active.2, (next.system.channels active.1).revents⟩))
  | .handleEvent handlers =>
      match loop.active with
      | [] => (loop, .idle)
      | active :: rest =>
          ({ loop with active := rest },
            .handled active.2
              (Channel.handleEvent handlers (loop.system.channels active.1).revents))

/-- All that `select` reports during a run for the channels that are activated. -/
def reportsAlong : SelectLoop → List SelectLabel → List (Nat × Events)
  | _, [] => []
  | loop, .poll round :: labels =>
      loop.roundReports round ++ reportsAlong (loop.poll round) labels
  | loop, label :: labels => reportsAlong (loop.step label).1 labels

/-! ## What a step shows -/

/-- `revents_` of each channel. -/
def held (loop : SelectLoop) (address : Nat) : Events := (loop.system.channels address).revents

/-- Each channel still to be handled shows what was reported for it. -/
def ActiveRight (loop : SelectLoop) : Prop :=
  ∀ active ∈ loop.active, loop.held active.1 = active.2 ∧
    ∃ readfds writefds fd, active.2 = SelectRound.reported readfds writefds fd

variable (loop : SelectLoop) (round : SelectRound)

theorem held_call (address : Nat) (call : ChannelCall) :
    (loop.call address call).held = loop.held :=
  funext (loop.system.stepSelect_channels (address, call)).revents

theorem held_poll :
    (loop.poll round).held =
      Accumulation.collect (· ||| ·) loop.held (loop.roundReports round) := by
  rw [poll, roundReports]
  split
  · next happened =>
    funext address
    simp only [held]
    rw [loop.filled_eq happened]
    rfl
  · rfl

theorem active_poll : (loop.poll round).active = loop.roundReports round := by
  rw [poll, roundReports]
  split
  · next happened =>
    dsimp only
    rw [loop.filled_eq happened, SelectPoller.reports, List.map_map, List.map_map]
    refine List.map_congr_left ?_
    rintro ⟨fd, address⟩ member
    have entered := List.mem_of_mem_filter (List.mem_of_mem_take member)
    have own := loop.owned fd address ((loop.mapped fd address).mp entered)
    simp only [Function.comp_apply, own]
  · rfl

theorem roundReports_apart :
    (loop.roundReports round).Pairwise fun left right => left.1 ≠ right.1 := by
  rw [roundReports]
  split
  · have apart : loop.entries.entries.Pairwise fun left right => left.2 ≠ right.2 := by
      refine loop.entries.sorted.imp_of_mem ?_
      rintro ⟨leftFd, left⟩ ⟨rightFd, right⟩ leftMember rightMember less
      have leftOwned := loop.owned _ _ ((loop.mapped _ _).mp leftMember)
      have rightOwned := loop.owned _ _ ((loop.mapped _ _).mp rightMember)
      rintro same
      dsimp only at less same leftOwned rightOwned
      rw [same, rightOwned] at leftOwned
      omega
    exact List.pairwise_map.mpr ((apart.filter _).sublist (List.take_sublist _ _))
  · exact .nil

theorem mem_roundReports {report : Nat × Events} (member : report ∈ loop.roundReports round) :
    ∃ readfds writefds fd, report.2 = SelectRound.reported readfds writefds fd := by
  rw [roundReports] at member
  split at member
  · rcases List.mem_map.mp member with ⟨entry, _, rfl⟩
    exact ⟨_, _, _, rfl⟩
  · cases member

/-- The activated channels are right when each report is shown as it arrives. -/
theorem poll_right_iff :
    (loop.step (.poll round)).2.Right ↔
      Accumulation.Shown (· ||| ·) loop.held (loop.roundReports round) := by
  have apart := loop.roundReports_apart round
  rw [Accumulation.shown_iff_of_apart apart]
  simp only [step, SelectOutput.Right, List.forall_mem_map]
  rw [loop.active_poll round]
  refine forall₂_congr ?_
  intro report member
  have shown := congrFun (loop.held_poll round) report.1
  rw [Accumulation.collect_of_mem apart member] at shown
  change (loop.poll round).held report.1 = report.2 ↔ _
  rw [shown]
  rfl

theorem activeRight_poll
    (shown : Accumulation.Shown (· ||| ·) loop.held (loop.roundReports round)) :
    (loop.poll round).ActiveRight := by
  have right := (loop.poll_right_iff round).mpr shown
  simp only [step, SelectOutput.Right, List.forall_mem_map] at right
  intro active member
  refine ⟨right active member, ?_⟩
  rw [loop.active_poll] at member
  exact loop.mem_roundReports round member

theorem handleEvent_right {handlers : Channel.Handlers} {readfds writefds : Int → Bool}
    {fd : Int} :
    (SelectOutput.handled (SelectRound.reported readfds writefds fd)
      (Channel.handleEvent handlers (SelectRound.reported readfds writefds fd))).Right := by
  constructor
  · intro member
    have raised := Channel.readCallback_mem member
    revert raised
    cases reads : readfds fd <;> cases writes : writefds fd <;>
      simp only [SelectRound.reported, reads, writes] <;> decide
  · exact Channel.writeCallback_mem

theorem step_handleEvent {loop : SelectLoop} (active : loop.ActiveRight)
    (handlers : Channel.Handlers) :
    (loop.step (.handleEvent handlers)).2.Right ∧
      (loop.step (.handleEvent handlers)).1.ActiveRight ∧
        (loop.step (.handleEvent handlers)).1.held = loop.held := by
  rw [step]
  split
  · exact ⟨trivial, active, rfl⟩
  · next first rest pending =>
    rw [ActiveRight, pending, List.forall_mem_cons] at active
    rcases active with ⟨⟨shown, readfds, writefds, fd, reported⟩, later⟩
    refine ⟨?_, later, rfl⟩
    change loop.held first.1 = first.2 at shown
    rw [held] at shown
    dsimp only
    rw [shown, reported]
    exact handleEvent_right

/-- All outputs of a run are right exactly when each report is shown as it arrives. -/
theorem outputs_right_iff {loop : SelectLoop} (active : loop.ActiveRight)
    (labels : List SelectLabel) :
    (∀ output ∈ (Machine.runOutputs step loop labels).2, output.Right) ↔
      Accumulation.Shown (· ||| ·) loop.held (loop.reportsAlong labels) := by
  induction labels generalizing loop with
  | nil => simp [Machine.runOutputs, reportsAlong, Accumulation.Shown]
  | cons label labels induction =>
      rw [Machine.runOutputs, List.forall_mem_cons]
      cases label with
      | call address call =>
          have kept := loop.held_call address call
          have stillRight : (loop.call address call).ActiveRight := by
            rw [ActiveRight, kept]
            exact active
          have later := induction stillRight
          rw [kept] at later
          exact (and_iff_right trivial).trans later
      | poll round =>
          rw [reportsAlong, Accumulation.shown_append, loop.poll_right_iff round,
            ← loop.held_poll round]
          refine and_congr_right ?_
          intro shown
          exact induction (loop.activeRight_poll round shown)
      | handleEvent handlers =>
          rcases step_handleEvent active handlers with ⟨right, stillRight, kept⟩
          have later := induction stillRight
          rw [kept] at later
          exact (and_iff_right right).trans later

/-- In a run of calls and rounds, whatever `select` answers, the channels are told what was
reported for them and run no other callback exactly when no channel is activated without
something that it was activated with before. -/
theorem poll_run_right_iff (fds : Nat → Int) (labels : List SelectLabel) :
    (∀ output ∈ (Machine.runOutputs step (create fds) labels).2, output.Right) ↔
      ((create fds).reportsAlong labels).Pairwise fun earlier later =>
        earlier.1 = later.1 → earlier.2 ||| later.2 = later.2 := by
  have start : (create fds).ActiveRight := by
    intro active member
    cases member
  rw [outputs_right_iff start]
  have unit : ∀ events : Events, 0 ||| events = events := fun _ => BitVec.zero_or
  exact Accumulation.shown_iff_pairwise unit

/-- The channel of descriptor 5 is reported writable in one round and readable in the next, and
runs both callbacks then. -/
theorem writable_report_stays :
    ¬ ∀ (fds : Nat → Int) (labels : List SelectLabel),
      ∀ output ∈ (Machine.runOutputs step (create fds) labels).2, output.Right := by
  intro law
  let handlers : Channel.Handlers := ⟨false, false, fun _ => true⟩
  have right := law (fun address => address)
    [.call 5 (.change .enableReading), .call 5 (.change .enableWriting),
      .poll ⟨1, fun _ => false, fun _ => true⟩, .handleEvent handlers,
      .poll ⟨1, fun _ => true, fun _ => false⟩, .handleEvent handlers]
    (.handled XPOLLIN [.readCallback, .writeCallback]) (by decide)
  exact absurd (right.2 (by decide)) (by decide)

end SelectLoop

end MyBookSources.Net
