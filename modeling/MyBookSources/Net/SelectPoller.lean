import MyBookSources.Net.EPollPoller

/-! # The select poller

`net::SelectPoller`: the same map from descriptors to channels, and a vector of
events that stands in for the kernel's interest list. `poll` does not look at
that vector: it builds its descriptor sets from the map and the channels, anew
each time. Here stands which descriptors it calls `FD_SET` for; how many of them
a set has room for stands with `DescriptorSets`.
-/

namespace MyBookSources.Net

/-- An entry of `events_`, with the channel that `data.ptr` points to. -/
structure EpollEvent where
  events : Events
  data : Nat
  deriving DecidableEq

structure SelectPoller where
  channels : Int → Option Nat
  events : List EpollEvent

namespace SelectPoller

def empty : SelectPoller := ⟨fun _ => none, []⟩

/-- The loops of `update`: the first entry for a channel is replaced, none where no
entry is for it. -/
def replaceFirst (address : Nat) (replacement : List EpollEvent) :
    List EpollEvent → Option (List EpollEvent)
  | [] => none
  | event :: rest =>
      if event.data = address then some (replacement ++ rest)
      else (replaceFirst address replacement rest).map (event :: ·)

def update (poller : SelectPoller) (operation : CtlOperation) (channel : Channel) :
    Bool × SelectPoller :=
  let entry : EpollEvent := ⟨channel.events, channel.address⟩
  let changed :=
    match operation with
    | .XEPOLL_CTL_ADD => some (poller.events ++ [entry])
    | .XEPOLL_CTL_DEL => replaceFirst channel.address [] poller.events
    | .XEPOLL_CTL_MOD => replaceFirst channel.address [entry] poller.events
  match changed with
  | none => (false, poller)
  | some events => (true, { poller with events := events })

structure Updated where
  answer : Bool
  poller : SelectPoller
  channel : Channel

def updateChannel (poller : SelectPoller) (channel : Channel) : Updated :=
  if channel.index = kNew ∨ channel.index = kDeleted then
    if channel.index = kNew then
      if (poller.channels channel.fd).isSome then ⟨false, poller, channel⟩
      else
        let entered := { poller with
          channels := Function.update poller.channels channel.fd (some channel.address) }
        let added := { channel with index := kAdded }
        let result := entered.update .XEPOLL_CTL_ADD added
        ⟨result.1, result.2, added⟩
    else if poller.channels channel.fd ≠ some channel.address then ⟨false, poller, channel⟩
    else
      let added := { channel with index := kAdded }
      let result := poller.update .XEPOLL_CTL_ADD added
      ⟨result.1, result.2, added⟩
  else if poller.channels channel.fd ≠ some channel.address ∨ channel.index ≠ kAdded then
    ⟨false, poller, channel⟩
  else if channel.isNoneEvent then
    let result := poller.update .XEPOLL_CTL_DEL channel
    if result.1 then ⟨true, result.2, { channel with index := kDeleted }⟩
    else ⟨false, result.2, channel⟩
  else
    let result := poller.update .XEPOLL_CTL_MOD channel
    ⟨result.1, result.2, channel⟩

/-- The entry in `events_` stays behind. -/
def removeChannel (poller : SelectPoller) (channel : Channel) : SelectPoller × Channel :=
  if poller.channels channel.fd ≠ some channel.address then (poller, channel)
  else if channel.isNoneEvent = false then (poller, channel)
  else
    ({ poller with channels := Function.update poller.channels channel.fd none },
      { channel with index := kNew })

/-- Whether `poll` calls `FD_SET` for a descriptor and one of its sets, `bit` being the event
that the set is for. -/
def isSet (poller : SelectPoller) (channels : Nat → Channel) (bit : Events) (fd : Int) : Bool :=
  match poller.channels fd with
  | none => false
  | some address => (channels address).events.has bit

def readfds (poller : SelectPoller) (channels : Nat → Channel) : Int → Bool :=
  poller.isSet channels XPOLLIN

def writefds (poller : SelectPoller) (channels : Nat → Channel) : Int → Bool :=
  poller.isSet channels XPOLLOUT

/-! ## The vector of events -/

/-- Some entry of `events_` is for the channel. -/
def Lists (events : List EpollEvent) (address : Nat) : Prop :=
  ∃ event ∈ events, event.data = address

theorem replaceFirst_of_lists {events : List EpollEvent} {address : Nat}
    (listed : Lists events address) (replacement : List EpollEvent) :
    ∃ changed, replaceFirst address replacement events = some changed := by
  induction events with
  | nil =>
      rcases listed with ⟨_, member, _⟩
      cases member
  | cons event rest induction =>
      rw [replaceFirst]
      split
      · exact ⟨_, rfl⟩
      · next other =>
        have later : Lists rest address := by
          rcases listed with ⟨found, member, same⟩
          cases member with
          | head => exact absurd same other
          | tail _ member => exact ⟨found, member, same⟩
        rcases induction later with ⟨changed, replaced⟩
        exact ⟨event :: changed, by rw [replaced]; rfl⟩

theorem Lists.of_replaceFirst {events changed : List EpollEvent} {address other : Nat}
    {replacement : List EpollEvent} (listed : Lists events other) (different : other ≠ address)
    (replaced : replaceFirst address replacement events = some changed) :
    Lists changed other := by
  induction events generalizing changed with
  | nil => cases replaced
  | cons event rest induction =>
      rcases listed with ⟨found, member, same⟩
      rw [replaceFirst] at replaced
      split at replaced
      · next first =>
        cases replaced
        cases member with
        | head => exact absurd (same.symm.trans first) different
        | tail _ member => exact ⟨found, List.mem_append_right _ member, same⟩
      · rcases Option.map_eq_some_iff.mp replaced with ⟨tail, tailReplaced, joined⟩
        cases joined
        cases member with
        | head => exact ⟨event, List.mem_cons_self, same⟩
        | tail _ member =>
            rcases induction ⟨found, member, same⟩ tailReplaced with ⟨kept, keptMember, keptSame⟩
            exact ⟨kept, List.mem_cons_of_mem _ keptMember, keptSame⟩

theorem lists_of_replaceFirst {events changed replacement : List EpollEvent} {address : Nat}
    (entered : Lists replacement address)
    (replaced : replaceFirst address replacement events = some changed) :
    Lists changed address := by
  induction events generalizing changed with
  | nil => cases replaced
  | cons event rest induction =>
      rw [replaceFirst] at replaced
      split at replaced
      · cases replaced
        rcases entered with ⟨found, member, same⟩
        exact ⟨found, List.mem_append_left _ member, same⟩
      · rcases Option.map_eq_some_iff.mp replaced with ⟨tail, tailReplaced, joined⟩
        cases joined
        rcases induction tailReplaced with ⟨found, member, same⟩
        exact ⟨found, List.mem_cons_of_mem _ member, same⟩

end SelectPoller

end MyBookSources.Net
