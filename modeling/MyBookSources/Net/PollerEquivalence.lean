import MyBookSources.Foundation.Execution
import MyBookSources.Net.SelectPoller
import Mathlib.Data.Set.Basic

/-! # The two pollers side by side

`EPollPoller` mirrors every change into the kernel, `SelectPoller` reads the
channels when it polls. As long as `epoll_ctl` succeeds, every call on the channels
keeps the two related, whether channels share descriptors or not.
-/

namespace MyBookSources.Net

/-- A call on a channel: one that changes its events, or `remove`. -/
inductive ChannelCall
  | change (change : Channel.EventChange)
  | remove
  deriving DecidableEq

namespace PollerSystem

/-- A call on the channel at an address; `remove` answers nothing. -/
def stepEPoll (system : PollerSystem EPollPoller) (label : Nat × ChannelCall) :
    PollerSystem EPollPoller × Option Bool :=
  let channel := system.channels label.1
  match label.2 with
  | .change change =>
      let updated := system.poller.updateChannel (channel.change change) true
      (⟨updated.poller, Function.update system.channels label.1 updated.channel⟩,
        some updated.answer)
  | .remove =>
      if channel.isNoneEvent = false then (system, none)
      else
        let removed := system.poller.removeChannel channel true
        (⟨removed.1, Function.update system.channels label.1 removed.2⟩, none)

def stepSelect (system : PollerSystem SelectPoller) (label : Nat × ChannelCall) :
    PollerSystem SelectPoller × Option Bool :=
  let channel := system.channels label.1
  match label.2 with
  | .change change =>
      let updated := system.poller.updateChannel (channel.change change)
      (⟨updated.poller, Function.update system.channels label.1 updated.channel⟩,
        some updated.answer)
  | .remove =>
      if channel.isNoneEvent = false then (system, none)
      else
        let removed := system.poller.removeChannel channel
        (⟨removed.1, Function.update system.channels label.1 removed.2⟩, none)

end PollerSystem

/-- The descriptors in the kernel's interest list that have some event, each with
whether it is watched for reading and for writing. -/
def EPollPoller.interest (poller : EPollPoller) : Set (Int × Bool × Bool) :=
  fun entry => ∃ events, poller.registered entry.1 = some events ∧
    events ≠ Channel.kNoneEvent ∧
    entry.2 = (events.has Channel.kReadEvent, events.has Channel.kWriteEvent)

/-- The descriptors that `poll` calls `FD_SET` for, and for which of its sets. -/
def SelectPoller.interest (poller : SelectPoller) (channels : Nat → Channel) :
    Set (Int × Bool × Bool) :=
  fun entry =>
    entry.2 = (poller.readfds channels entry.1, poller.writefds channels entry.1) ∧
      (poller.readfds channels entry.1 = true ∨ poller.writefds channels entry.1 = true)

/-! ## What one call does -/

namespace EPollPoller

variable {poller : EPollPoller} {channel : Channel}

theorem removeChannel_unmapped (unmapped : poller.channels channel.fd ≠ some channel.address) :
    poller.removeChannel channel true = (poller, channel) := by
  rw [removeChannel, if_pos (.inl unmapped)]

theorem removeChannel_mapped (mapped : poller.channels channel.fd = some channel.address)
    (empty : channel.isNoneEvent = true)
    (indexed : channel.index = kAdded ∨ channel.index = kDeleted) :
    poller.removeChannel channel true =
      (⟨Function.update poller.channels channel.fd none,
        if channel.index = kAdded then Function.update poller.registered channel.fd none
        else poller.registered⟩, { channel with index := kNew }) := by
  rw [removeChannel, if_neg (by simp [mapped, empty]), if_neg (by tauto)]
  dsimp only
  split <;> rfl

end EPollPoller

namespace SelectPoller

variable {poller : SelectPoller} {channel : Channel}

theorem updateChannel_taken (new : channel.index = kNew)
    (taken : poller.channels channel.fd ≠ none) :
    poller.updateChannel channel = ⟨false, poller, channel⟩ := by
  rw [updateChannel, if_pos (.inl new), if_pos new, if_pos (Option.isSome_iff_ne_none.mpr taken)]

theorem updateChannel_free (new : channel.index = kNew)
    (free : poller.channels channel.fd = none) :
    poller.updateChannel channel =
      ⟨true, ⟨Function.update poller.channels channel.fd (some channel.address),
        poller.events ++ [⟨channel.events, channel.address⟩]⟩,
        { channel with index := kAdded }⟩ := by
  rw [updateChannel, if_pos (.inl new), if_pos new, if_neg (by simp [free])]
  rfl

theorem updateChannel_deleted (deleted : channel.index = kDeleted)
    (mapped : poller.channels channel.fd = some channel.address) :
    poller.updateChannel channel =
      ⟨true, { poller with events := poller.events ++ [⟨channel.events, channel.address⟩] },
        { channel with index := kAdded }⟩ := by
  have notNew : channel.index ≠ kNew := by
    rw [deleted]
    decide
  rw [updateChannel, if_pos (.inr deleted), if_neg notNew, if_neg (by simp [mapped])]
  rfl

theorem updateChannel_none {events : List EpollEvent} (added : channel.index = kAdded)
    (mapped : poller.channels channel.fd = some channel.address)
    (empty : channel.isNoneEvent = true)
    (replaced : replaceFirst channel.address [] poller.events = some events) :
    poller.updateChannel channel =
      ⟨true, { poller with events := events }, { channel with index := kDeleted }⟩ := by
  rw [updateChannel, if_neg (by rw [added]; decide), if_neg (by simp [mapped, added]),
    if_pos empty]
  simp [update, replaced]

theorem updateChannel_some {events : List EpollEvent} (added : channel.index = kAdded)
    (mapped : poller.channels channel.fd = some channel.address)
    (enabled : channel.isNoneEvent = false)
    (replaced : replaceFirst channel.address [⟨channel.events, channel.address⟩]
      poller.events = some events) :
    poller.updateChannel channel = ⟨true, { poller with events := events }, channel⟩ := by
  rw [updateChannel, if_neg (by rw [added]; decide), if_neg (by simp [mapped, added]),
    if_neg (by simp [enabled])]
  simp [update, replaced]

theorem removeChannel_unmapped (unmapped : poller.channels channel.fd ≠ some channel.address) :
    poller.removeChannel channel = (poller, channel) := by
  rw [removeChannel, if_pos unmapped]

theorem removeChannel_mapped (mapped : poller.channels channel.fd = some channel.address)
    (empty : channel.isNoneEvent = true) :
    poller.removeChannel channel =
      ({ poller with channels := Function.update poller.channels channel.fd none },
        { channel with index := kNew }) := by
  rw [removeChannel, if_neg (by simp [mapped]), if_neg (by simp [empty])]

end SelectPoller

/-! ## The simulation relation -/

namespace PollerSystem

/-- What the kernel, the map, the vector of events and the index say about the channel
at one address, seen from its descriptor. -/
inductive Placed (map : Int → Option Nat) (registered : Int → Option Events)
    (events : List EpollEvent) (channel : Channel) : Prop
  | new : channel.index = kNew → map channel.fd ≠ some channel.address →
      Placed map registered events channel
  | added : channel.index = kAdded → map channel.fd = some channel.address →
      registered channel.fd = some channel.events →
      SelectPoller.Lists events channel.address → Placed map registered events channel
  | deleted : channel.index = kDeleted → map channel.fd = some channel.address →
      registered channel.fd = none → channel.isNoneEvent = true →
      Placed map registered events channel

structure Related (left : PollerSystem EPollPoller) (right : PollerSystem SelectPoller) :
    Prop where
  channels : right.channels = left.channels
  map : right.poller.channels = left.poller.channels
  address : ∀ address, (left.channels address).address = address
  usual : ∀ address, (left.channels address).Usual
  mapped : ∀ fd address, left.poller.channels fd = some address →
    (left.channels address).fd = fd
  unregistered : ∀ fd, left.poller.channels fd = none → left.poller.registered fd = none
  placed : ∀ address, Placed left.poller.channels left.poller.registered right.poller.events
    (left.channels address)

variable {left : PollerSystem EPollPoller} {right : PollerSystem SelectPoller}

theorem create_related (fds : Nat → Int) :
    Related (create EPollPoller.empty fds) (create SelectPoller.empty fds) where
  channels := rfl
  map := rfl
  address _ := rfl
  usual _ := .inl rfl
  mapped _ _ found := by cases found
  unregistered _ _ := rfl
  placed _ := .new rfl nofun

/-- A channel that is placed stays placed when another one's call leaves its descriptor
and its entries alone. -/
theorem Placed.congr {map map' : Int → Option Nat} {registered registered' : Int → Option Events}
    {events events' : List EpollEvent} {channel : Channel}
    (placed : Placed map registered events channel)
    (sameMap : map' channel.fd = map channel.fd)
    (sameRegistered : registered' channel.fd = registered channel.fd)
    (listed : SelectPoller.Lists events channel.address →
      SelectPoller.Lists events' channel.address) :
    Placed map' registered' events' channel := by
  cases placed with
  | new index absent => exact .new index (by rwa [sameMap])
  | added index present watched entered =>
      exact .added index (by rwa [sameMap]) (by rwa [sameRegistered]) (listed entered)
  | deleted index present unwatched empty =>
      exact .deleted index (by rwa [sameMap]) (by rwa [sameRegistered]) empty

theorem ne_of_owned {entry : Option Nat} {address other : Nat}
    (owned : entry = none ∨ entry = some address) (different : other ≠ address) :
    entry ≠ some other := by
  intro found
  cases owned with
  | inl free =>
      rw [free] at found
      cases found
  | inr own =>
      rw [own] at found
      exact different (Option.some.inj found).symm

theorem Placed.outside {map map' : Int → Option Nat}
    {registered registered' : Int → Option Events} {events events' : List EpollEvent}
    {channel : Channel} (placed : Placed map registered events channel)
    (before : map channel.fd ≠ some channel.address)
    (after : map' channel.fd ≠ some channel.address) :
    Placed map' registered' events' channel := by
  cases placed with
  | new index _ => exact .new index after
  | added _ mapped _ _ => exact absurd mapped before
  | deleted _ mapped _ _ => exact absurd mapped before

/-- A call changes one channel, what stands under its descriptor, and entries of its
own. Under the descriptor nothing changes, or it was free or the channel's and is
the channel's or free afterwards. -/
theorem Related.replace (related : Related left right) (address : Nat) {channel : Channel}
    (sameAddress : channel.address = address)
    (sameFd : channel.fd = (left.channels address).fd) (usual : channel.Usual)
    {map : Int → Option Nat} {registered : Int → Option Events} {events : List EpollEvent}
    (others : ∀ fd, fd ≠ channel.fd →
      map fd = left.poller.channels fd ∧ registered fd = left.poller.registered fd)
    (listed : ∀ other, other ≠ address → SelectPoller.Lists right.poller.events other →
      SelectPoller.Lists events other)
    (own : (map channel.fd = left.poller.channels channel.fd ∧
        registered channel.fd = left.poller.registered channel.fd) ∨
      ((left.poller.channels channel.fd = none ∨
          left.poller.channels channel.fd = some address) ∧
        (map channel.fd = some address ∨
          (map channel.fd = none ∧ registered channel.fd = none))))
    (placed : Placed map registered events channel) :
    Related ⟨⟨map, registered⟩, Function.update left.channels address channel⟩
      ⟨⟨map, events⟩, Function.update left.channels address channel⟩ where
  channels := rfl
  map := rfl
  address := by
    apply (Function.forall_update_iff left.channels
      fun other (replaced : Channel) => replaced.address = other).mpr
    exact ⟨sameAddress, fun other _ => related.address other⟩
  usual := by
    apply (Function.forall_update_iff left.channels
      fun _ (replaced : Channel) => replaced.Usual).mpr
    exact ⟨usual, fun other _ => related.usual other⟩
  mapped fd other found := by
    change map fd = some other at found
    change (Function.update left.channels address channel other).fd = fd
    by_cases here : fd = channel.fd
    · by_cases same : other = address
      · rw [same, Function.update_self, here]
      · rw [Function.update_of_ne same]
        apply related.mapped
        rw [here] at found ⊢
        cases own with
        | inl kept => rw [← kept.1, found]
        | inr owned =>
            exact absurd found (ne_of_owned (owned.2.symm.imp_left And.left) same)
    · rw [(others fd here).1] at found
      have owner := related.mapped fd other found
      by_cases same : other = address
      · rw [same, ← sameFd] at owner
        exact absurd owner.symm here
      · rw [Function.update_of_ne same, owner]
  unregistered fd absent := by
    change map fd = none at absent
    change registered fd = none
    by_cases here : fd = channel.fd
    · rw [here] at absent ⊢
      cases own with
      | inl kept =>
          rw [kept.2]
          apply related.unregistered
          rw [← kept.1, absent]
      | inr owned =>
          cases owned.2 with
          | inl entered =>
              rw [entered] at absent
              cases absent
          | inr erased => exact erased.2
    · rw [(others fd here).2]
      apply related.unregistered
      rw [← (others fd here).1, absent]
  placed other := by
    change Placed map registered events (Function.update left.channels address channel other)
    by_cases same : other = address
    · rw [same, Function.update_self]
      exact placed
    · rw [Function.update_of_ne same]
      have before := related.placed other
      have ownAddress := related.address other
      have kept : SelectPoller.Lists right.poller.events (left.channels other).address →
          SelectPoller.Lists events (left.channels other).address := by
        rw [ownAddress]
        exact listed other same
      by_cases here : (left.channels other).fd = channel.fd
      · cases own with
        | inl unchanged =>
            rw [← here] at unchanged
            exact before.congr unchanged.1 unchanged.2 kept
        | inr owned =>
            -- another channel holds no descriptor that is free or this channel's
            apply before.outside
            · rw [here, ownAddress]
              exact ne_of_owned owned.1 same
            · rw [here, ownAddress]
              exact ne_of_owned (owned.2.symm.imp_left And.left) same
      · exact before.congr (others _ here).1 (others _ here).2 kept

section Steps

variable {map : Int → Option Nat} {registered : Int → Option Events}
  {events changed : List EpollEvent} {channels : Nat → Channel} {channel : Channel}

theorem lists_append {address : Nat} (event : EpollEvent)
    (listed : SelectPoller.Lists events address) :
    SelectPoller.Lists (events ++ [event]) address := by
  rcases listed with ⟨found, member, same⟩
  exact ⟨found, List.mem_append_left _ member, same⟩

theorem lists_entered (events : List EpollEvent) (event : EpollEvent) :
    SelectPoller.Lists (events ++ [event]) event.data :=
  ⟨event, List.mem_append_right _ (List.mem_singleton_self event), rfl⟩

theorem off_descriptor {fd : Int} (entry : Option Nat) (interest : Option Events) :
    ∀ other, other ≠ fd → Function.update map fd entry other = map other ∧
      Function.update registered fd interest other = registered other := by
  intro other different
  exact ⟨Function.update_of_ne different _ _, Function.update_of_ne different _ _⟩

theorem Related.enters
    (related : Related ⟨⟨map, registered⟩, channels⟩ ⟨⟨map, events⟩, channels⟩)
    (fd : channel.fd = (channels channel.address).fd) (usual : channel.Usual)
    (room : map channel.fd = none ∨ map channel.fd = some channel.address)
    (listed : ∀ other, other ≠ channel.address → SelectPoller.Lists events other →
      SelectPoller.Lists changed other)
    (entered : SelectPoller.Lists changed channel.address) :
    Related ⟨⟨Function.update map channel.fd (some channel.address),
        Function.update registered channel.fd (some channel.events)⟩,
        Function.update channels channel.address { channel with index := kAdded }⟩
      ⟨⟨Function.update map channel.fd (some channel.address), changed⟩,
        Function.update channels channel.address { channel with index := kAdded }⟩ := by
  apply related.replace channel.address
  · rfl
  · exact fd
  · exact usual
  · exact off_descriptor _ _
  · exact listed
  · exact .inr ⟨room, .inl (Function.update_self ..)⟩
  · apply Placed.added
    · rfl
    · exact Function.update_self ..
    · exact Function.update_self ..
    · exact entered

theorem Related.watches
    (related : Related ⟨⟨map, registered⟩, channels⟩ ⟨⟨map, events⟩, channels⟩)
    (fd : channel.fd = (channels channel.address).fd) (usual : channel.Usual)
    (mapped : map channel.fd = some channel.address)
    (listed : ∀ other, other ≠ channel.address → SelectPoller.Lists events other →
      SelectPoller.Lists changed other)
    (entered : SelectPoller.Lists changed channel.address) :
    Related ⟨⟨map, Function.update registered channel.fd (some channel.events)⟩,
        Function.update channels channel.address { channel with index := kAdded }⟩
      ⟨⟨map, changed⟩,
        Function.update channels channel.address { channel with index := kAdded }⟩ := by
  have same : Function.update map channel.fd (some channel.address) = map := by
    rw [← mapped]
    exact Function.update_eq_self ..
  have watched := related.enters fd usual (.inr mapped) listed entered
  rw [same] at watched
  exact watched

theorem Related.unwatches
    (related : Related ⟨⟨map, registered⟩, channels⟩ ⟨⟨map, events⟩, channels⟩)
    (fd : channel.fd = (channels channel.address).fd) (usual : channel.Usual)
    (empty : channel.isNoneEvent = true)
    (mapped : map channel.fd = some channel.address)
    (listed : ∀ other, other ≠ channel.address → SelectPoller.Lists events other →
      SelectPoller.Lists changed other) :
    Related ⟨⟨map, Function.update registered channel.fd none⟩,
        Function.update channels channel.address { channel with index := kDeleted }⟩
      ⟨⟨map, changed⟩,
        Function.update channels channel.address { channel with index := kDeleted }⟩ := by
  apply related.replace channel.address
  · rfl
  · exact fd
  · exact usual
  · intro other different
    exact ⟨rfl, Function.update_of_ne different _ _⟩
  · exact listed
  · exact .inr ⟨.inr mapped, .inl mapped⟩
  · apply Placed.deleted
    · rfl
    · exact mapped
    · exact Function.update_self ..
    · exact empty

theorem Related.refused
    (related : Related ⟨⟨map, registered⟩, channels⟩ ⟨⟨map, events⟩, channels⟩)
    (fd : channel.fd = (channels channel.address).fd) (usual : channel.Usual)
    (new : channel.index = kNew) (absent : map channel.fd ≠ some channel.address) :
    Related ⟨⟨map, registered⟩, Function.update channels channel.address channel⟩
      ⟨⟨map, events⟩, Function.update channels channel.address channel⟩ := by
  apply related.replace channel.address
  · rfl
  · exact fd
  · exact usual
  · intro other different
    exact ⟨rfl, rfl⟩
  · intro other different listed
    exact listed
  · exact .inl ⟨rfl, rfl⟩
  · exact .new new absent

theorem Related.erases
    (related : Related ⟨⟨map, registered⟩, channels⟩ ⟨⟨map, events⟩, channels⟩)
    (fd : channel.fd = (channels channel.address).fd) (usual : channel.Usual)
    (mapped : map channel.fd = some channel.address) {cleared : Int → Option Events}
    (others : ∀ other, other ≠ channel.fd → cleared other = registered other)
    (unwatched : cleared channel.fd = none) :
    Related ⟨⟨Function.update map channel.fd none, cleared⟩,
        Function.update channels channel.address { channel with index := kNew }⟩
      ⟨⟨Function.update map channel.fd none, events⟩,
        Function.update channels channel.address { channel with index := kNew }⟩ := by
  apply related.replace channel.address
  · rfl
  · exact fd
  · exact usual
  · intro other different
    exact ⟨Function.update_of_ne different _ _, others other different⟩
  · intro other different listed
    exact listed
  · exact .inr ⟨.inr mapped, .inr ⟨Function.update_self .., unwatched⟩⟩
  · apply Placed.new
    · rfl
    · change Function.update map channel.fd none channel.fd ≠ _
      rw [Function.update_self]
      exact nofun

theorem Related.change
    (related : Related ⟨⟨map, registered⟩, channels⟩ ⟨⟨map, events⟩, channels⟩)
    (address : Nat) (change : Channel.EventChange) :
    (stepEPoll ⟨⟨map, registered⟩, channels⟩ (address, .change change)).2 =
        (stepSelect ⟨⟨map, events⟩, channels⟩ (address, .change change)).2 ∧
      Related (stepEPoll ⟨⟨map, registered⟩, channels⟩ (address, .change change)).1
        (stepSelect ⟨⟨map, events⟩, channels⟩ (address, .change change)).1 := by
  have usual : ((channels address).change change).Usual :=
    (related.usual address).change change
  have fd : ((channels address).change change).fd = (channels address).fd :=
    Channel.change_fd _ _
  have index : ((channels address).change change).index = (channels address).index :=
    Channel.change_index _ _
  have before : (channels address).address = address := related.address address
  have own : ((channels address).change change).address = address :=
    (Channel.change_address _ _).trans before
  have placed : Placed map registered events (channels address) := related.placed address
  simp only [stepEPoll, stepSelect]
  generalize (channels address).change change = channel at usual fd index own ⊢
  subst own
  cases placed with
  | new new absent =>
      have channelNew : channel.index = kNew := index.trans new
      rw [before, ← fd] at absent
      by_cases free : map channel.fd = none
      · rw [EPollPoller.updateChannel_free channelNew free,
          SelectPoller.updateChannel_free channelNew free]
        constructor
        · rfl
        · apply related.enters fd usual (.inl free)
          · intro other _ listed
            exact lists_append _ listed
          · exact lists_entered events ⟨channel.events, channel.address⟩
      · rw [EPollPoller.updateChannel_taken channelNew free,
          SelectPoller.updateChannel_taken channelNew free]
        constructor
        · rfl
        · exact related.refused fd usual channelNew absent
  | added added mapped watched entered =>
      have channelAdded : channel.index = kAdded := index.trans added
      rw [before, ← fd] at mapped
      rw [before] at entered
      by_cases empty : channel.isNoneEvent = true
      · rcases SelectPoller.replaceFirst_of_lists entered [] with ⟨changed, replaced⟩
        rw [EPollPoller.updateChannel_none channelAdded mapped empty,
          SelectPoller.updateChannel_none channelAdded mapped empty replaced]
        constructor
        · rfl
        · apply related.unwatches fd usual empty mapped
          intro other different listed
          exact listed.of_replaceFirst different replaced
      · have enabled : channel.isNoneEvent = false := by simpa using empty
        rcases SelectPoller.replaceFirst_of_lists entered
          [⟨channel.events, channel.address⟩] with ⟨changed, replaced⟩
        rw [EPollPoller.updateChannel_some channelAdded mapped enabled,
          SelectPoller.updateChannel_some channelAdded mapped enabled replaced]
        have same : { channel with index := kAdded } = channel := by
          rw [← channelAdded]
        have others : ∀ other, other ≠ channel.address → SelectPoller.Lists events other →
            SelectPoller.Lists changed other := by
          intro other different listed
          exact listed.of_replaceFirst different replaced
        have listed : SelectPoller.Lists changed channel.address := by
          apply SelectPoller.lists_of_replaceFirst _ replaced
          exact ⟨⟨channel.events, channel.address⟩, List.mem_singleton_self _, rfl⟩
        have watches := related.watches fd usual mapped others listed
        rw [same] at watches
        exact ⟨rfl, watches⟩
  | deleted deleted mapped unwatched empty =>
      have channelDeleted : channel.index = kDeleted := index.trans deleted
      rw [before, ← fd] at mapped
      rw [EPollPoller.updateChannel_deleted channelDeleted mapped,
        SelectPoller.updateChannel_deleted channelDeleted mapped]
      constructor
      · rfl
      · apply related.watches fd usual mapped
        · intro other _ listed
          exact lists_append _ listed
        · exact lists_entered events ⟨channel.events, channel.address⟩

theorem Related.remove
    (related : Related ⟨⟨map, registered⟩, channels⟩ ⟨⟨map, events⟩, channels⟩)
    (address : Nat) :
    (stepEPoll ⟨⟨map, registered⟩, channels⟩ (address, .remove)).2 =
        (stepSelect ⟨⟨map, events⟩, channels⟩ (address, .remove)).2 ∧
      Related (stepEPoll ⟨⟨map, registered⟩, channels⟩ (address, .remove)).1
        (stepSelect ⟨⟨map, events⟩, channels⟩ (address, .remove)).1 := by
  have usual : (channels address).Usual := related.usual address
  have own : (channels address).address = address := related.address address
  have fd : (channels address).fd = (channels (channels address).address).fd := by rw [own]
  have placed : Placed map registered events (channels address) := related.placed address
  simp only [stepEPoll, stepSelect]
  generalize channels address = channel at usual own fd placed ⊢
  subst own
  split
  · exact ⟨rfl, related⟩
  · next enabled =>
    have empty : channel.isNoneEvent = true := by simpa using enabled
    cases placed with
    | new new absent =>
        rw [EPollPoller.removeChannel_unmapped absent, SelectPoller.removeChannel_unmapped absent]
        constructor
        · rfl
        · exact related.refused fd usual new absent
    | added added mapped watched entered =>
        rw [EPollPoller.removeChannel_mapped mapped empty (.inl added), if_pos added,
          SelectPoller.removeChannel_mapped mapped empty]
        constructor
        · rfl
        · apply related.erases fd usual mapped
          · intro other different
            exact Function.update_of_ne different _ _
          · exact Function.update_self ..
    | deleted deleted mapped unwatched _ =>
        have notAdded : channel.index ≠ kAdded := by
          rw [deleted]
          decide
        rw [EPollPoller.removeChannel_mapped mapped empty (.inr deleted), if_neg notAdded,
          SelectPoller.removeChannel_mapped mapped empty]
        constructor
        · rfl
        · apply related.erases fd usual mapped
          · intro other different
            rfl
          · exact unwatched

end Steps

/-- Both pollers answer one call alike and stay related. -/
theorem Related.step (related : Related left right) (label : Nat × ChannelCall) :
    (left.stepEPoll label).2 = (right.stepSelect label).2 ∧
      Related (left.stepEPoll label).1 (right.stepSelect label).1 := by
  rcases left with ⟨⟨map, registered⟩, channels⟩
  rcases right with ⟨⟨rightMap, events⟩, rightChannels⟩
  have sameChannels : rightChannels = channels := related.channels
  have sameMap : rightMap = map := related.map
  subst sameChannels sameMap
  rcases label with ⟨address, call⟩
  cases call with
  | change change => exact related.change address change
  | remove => exact related.remove address

/-- Related pollers are to watch the same descriptors for the same events. -/
theorem Related.interest (related : Related left right) :
    left.poller.interest = right.poller.interest right.channels := by
  apply Set.ext
  intro entry
  rcases entry with ⟨fd, watched⟩
  change (∃ events, left.poller.registered fd = some events ∧ events ≠ Channel.kNoneEvent ∧
      watched = (events.has Channel.kReadEvent, events.has Channel.kWriteEvent)) ↔
    watched = (right.poller.isSet right.channels XPOLLIN fd,
        right.poller.isSet right.channels XPOLLOUT fd) ∧
      (right.poller.isSet right.channels XPOLLIN fd = true ∨
        right.poller.isSet right.channels XPOLLOUT fd = true)
  cases mapped : left.poller.channels fd with
  | none =>
      have unset (bit : Events) : right.poller.isSet right.channels bit fd = false := by
        rw [SelectPoller.isSet, related.map, mapped]
      rw [related.unregistered fd mapped, unset, unset]
      simp
  | some address =>
      have own := related.mapped fd address mapped
      have usual := related.usual address
      have set (bit : Events) : right.poller.isSet right.channels bit fd =
          (left.channels address).events.has bit := by
        rw [SelectPoller.isSet, related.map, mapped, related.channels]
      have reading : (left.channels address).events.has XPOLLIN =
          (left.channels address).isReading := usual.has_XPOLLIN
      have writing : (left.channels address).events.has XPOLLOUT =
          (left.channels address).isWriting := rfl
      rw [set, set, reading, writing]
      cases related.placed address with
      | new _ absent =>
          rw [own, related.address] at absent
          exact absurd mapped absent
      | added _ _ registered _ =>
          rw [own] at registered
          have some : (left.channels address).events ≠ Channel.kNoneEvent ↔
              (left.channels address).isReading = true ∨
                (left.channels address).isWriting = true := by
            have none := usual.isNoneEvent_iff
            rw [Channel.isNoneEvent, beq_iff_eq] at none
            rw [ne_eq, none, not_and_or, Bool.not_eq_false, Bool.not_eq_false]
          rw [registered, ← some]
          constructor
          · intro present
            rcases present with ⟨events, same, enabled, watches⟩
            cases same
            exact ⟨watches, enabled⟩
          · intro present
            exact ⟨_, rfl, present.2, present.1⟩
      | deleted _ _ unwatched empty =>
          rw [own] at unwatched
          rcases usual.isNoneEvent_iff.mp empty with ⟨notReading, notWriting⟩
          rw [unwatched, notReading, notWriting]
          simp

end PollerSystem

end MyBookSources.Net
