import MyBookSources.Foundation.Execution
import MyBookSources.Net.Channel
import Mathlib.Logic.Function.Basic

/-! # The poll poller

`net::PollPoller`: an array of `pollfd` entries and a map from descriptors to
channels; the index of a channel says where its entry is. A channel without
events keeps its entry under a negative descriptor, which `poll` passes over.
None stands for undefined behaviour: an access outside the array, or through a
null pointer.
-/

namespace MyBookSources.Net

/-- `struct pollfd`: the two masks are `short`. -/
structure PollFd where
  fd : Int
  events : BitVec 16
  revents : BitVec 16
  deriving DecidableEq

structure PollPoller where
  pollfds : List PollFd
  channels : Int → Option Nat

namespace PollPoller

def empty : PollPoller := ⟨[], fun _ => none⟩

structure Updated where
  answer : Bool
  poller : PollPoller
  channel : Channel

def updateChannel (poller : PollPoller) (channel : Channel) : Updated :=
  if channel.index < 0 then
    if (poller.channels channel.fd).isSome then ⟨false, poller, channel⟩
    else
      let pfd : PollFd := ⟨channel.fd, channel.events.setWidth 16, 0⟩
      let pollfds := poller.pollfds ++ [pfd]
      ⟨true, ⟨pollfds, Function.update poller.channels pfd.fd (some channel.address)⟩,
        { channel with index := pollfds.length - 1 }⟩
  else if poller.channels channel.fd ≠ some channel.address then ⟨false, poller, channel⟩
  else
    match poller.pollfds[channel.index.toNat]? with
    | none => ⟨false, poller, channel⟩
    | some pfd =>
        let changed : PollFd :=
          ⟨if channel.isNoneEvent then -channel.fd - 1 else pfd.fd,
            channel.events.setWidth 16, 0⟩
        ⟨true, { poller with pollfds := poller.pollfds.set channel.index.toNat changed },
          channel⟩

/-- `removeChannel` also moves the index of the channel whose entry fills the hole. The
test of the range of `idx` joins its two halves by `&&`. -/
def removeChannel (system : PollerSystem PollPoller) (address : Nat) :
    Option (PollerSystem PollPoller) :=
  let channel := system.channels address
  let poller := system.poller
  let idx := channel.index
  if poller.channels channel.fd ≠ some address ∨ channel.isNoneEvent = false then some system
  else if 0 > idx ∧ idx ≥ poller.pollfds.length then some system
  else if 0 > idx ∨ idx ≥ poller.pollfds.length then none
  else
    let channels := Function.update poller.channels channel.fd none
    match poller.pollfds.getLast? with
    | none => none
    | some last =>
        if idx.toNat = poller.pollfds.length - 1 then
          some { system with poller := ⟨poller.pollfds.dropLast, channels⟩ }
        else
          let channelAtEnd := if last.fd < 0 then -last.fd - 1 else last.fd
          (channels channelAtEnd).map fun moved =>
            ⟨⟨(poller.pollfds.set idx.toNat last).dropLast, channels⟩,
              Function.update system.channels moved { system.channels moved with index := idx }⟩

end PollPoller

/-- A call of the poller on the channel at an address: `updateChannel` after a change
of the events, or `removeChannel`. -/
inductive PollCall
  | updateChannel (change : Channel.EventChange)
  | removeChannel
  deriving DecidableEq

namespace PollerSystem

def stepPoll (system : PollerSystem PollPoller) (label : Nat × PollCall) :
    Option (PollerSystem PollPoller) :=
  match label.2 with
  | .updateChannel change =>
      let updated := system.poller.updateChannel ((system.channels label.1).change change)
      some ⟨updated.poller, Function.update system.channels label.1 updated.channel⟩
  | .removeChannel => PollPoller.removeChannel system label.1

end PollerSystem

/-! ## The array and the channels in step -/

/-- The entry carries the events of the channel, and its descriptor unless there are
none. -/
structure PollFd.For (pfd : PollFd) (channel : Channel) : Prop where
  events : pfd.events.setWidth 32 = channel.events
  fd : pfd.fd = if channel.isNoneEvent then -channel.fd - 1 else channel.fd

namespace PollPoller

variable {system : PollerSystem PollPoller}

/-- The channels of the map have the entries of the array, one each. -/
structure InStep (system : PollerSystem PollPoller) : Prop where
  entry : ∀ fd address, system.poller.channels fd = some address →
    (system.channels address).fd = fd ∧ 0 ≤ (system.channels address).index ∧
      ∃ pfd, system.poller.pollfds[(system.channels address).index.toNat]? = some pfd ∧
        pfd.For (system.channels address)
  distinct : ∀ fd address otherFd other, system.poller.channels fd = some address →
    system.poller.channels otherFd = some other →
    (system.channels address).index = (system.channels other).index → address = other
  owned : ∀ position, position < system.poller.pollfds.length →
    ∃ fd address, system.poller.channels fd = some address ∧
      (system.channels address).index = position

/-- The condition on a call: a channel that is in the map and has no event is not given
one, and a channel is not added without any. -/
def Permits (system : PollerSystem PollPoller) (label : Nat × PollCall) : Prop :=
  match label.2 with
  | .updateChannel change =>
      let channel := system.channels label.1
      let changed := channel.change change
      if system.poller.channels channel.fd = some label.1 then
        changed.isNoneEvent = true ∨ channel.isNoneEvent = false
      else channel.index < 0 → changed.isNoneEvent = false
  | .removeChannel => True

/-- What every reachable state has besides: channels of their own descriptors, and none
in the map that was never added. -/
structure Sound (system : PollerSystem PollPoller) : Prop extends InStep system where
  address : ∀ address, (system.channels address).address = address
  usual : ∀ address, (system.channels address).Usual
  descriptor : ∀ address, 0 ≤ (system.channels address).fd
  injective : ∀ address other, (system.channels address).fd = (system.channels other).fd →
    address = other
  fresh : ∀ fd address, (system.channels address).index < 0 →
    system.poller.channels fd ≠ some address

/-! ## What one call does -/

section Calls

variable {poller : PollPoller} {channel : Channel}

theorem updateChannel_new {address : Nat} (own : channel.address = address)
    (new : channel.index < 0) (free : poller.channels channel.fd = none) :
    poller.updateChannel channel =
      ⟨true, ⟨poller.pollfds ++ [⟨channel.fd, channel.events.setWidth 16, 0⟩],
        Function.update poller.channels channel.fd (some address)⟩,
        { channel with index := poller.pollfds.length }⟩ := by
  rw [updateChannel, if_pos new, if_neg (by simp [free]), own]
  simp

theorem updateChannel_refused (old : 0 ≤ channel.index)
    (absent : poller.channels channel.fd ≠ some channel.address) :
    poller.updateChannel channel = ⟨false, poller, channel⟩ := by
  rw [updateChannel, if_neg (Int.not_lt.mpr old), if_pos absent]

theorem updateChannel_known {pfd : PollFd} (old : 0 ≤ channel.index)
    (mapped : poller.channels channel.fd = some channel.address)
    (found : poller.pollfds[channel.index.toNat]? = some pfd) :
    poller.updateChannel channel =
      ⟨true, ⟨poller.pollfds.set channel.index.toNat
          ⟨if channel.isNoneEvent then -channel.fd - 1 else pfd.fd,
            channel.events.setWidth 16, 0⟩,
        poller.channels⟩, channel⟩ := by
  rw [updateChannel, if_neg (Int.not_lt.mpr old), if_neg (by simp [mapped])]
  simp only [found]

end Calls

theorem setWidth_events {channel : Channel} (usual : channel.Usual) :
    (channel.events.setWidth 16).setWidth 32 = channel.events := by
  rcases usual with events | events | events | events <;> rw [events] <;> rfl

namespace Sound

theorem index_lt (sound : Sound system) {fd : Int} {address : Nat}
    (mapped : system.poller.channels fd = some address) :
    (system.channels address).index.toNat < system.poller.pollfds.length := by
  rcases sound.entry fd address mapped with ⟨_, _, pfd, found, _⟩
  exact (List.getElem?_eq_some_iff.mp found).1

theorem mapped_self (sound : Sound system) {fd : Int} {address : Nat}
    (mapped : system.poller.channels fd = some address) :
    system.poller.channels (system.channels address).fd = some address := by
  rw [(sound.entry fd address mapped).1]
  exact mapped

theorem free (sound : Sound system) {address : Nat}
    (absent : system.poller.channels (system.channels address).fd ≠ some address) :
    system.poller.channels (system.channels address).fd = none := by
  cases found : system.poller.channels (system.channels address).fd with
  | none => rfl
  | some other =>
      have own := (sound.entry _ other found).1
      have same := sound.injective other address own
      rw [same] at found
      exact absurd found absent

theorem index_ne (sound : Sound system) {fd otherFd : Int} {first second : Nat}
    (foundFirst : system.poller.channels fd = some first)
    (foundSecond : system.poller.channels otherFd = some second) (different : first ≠ second) :
    (system.channels first).index.toNat ≠ (system.channels second).index.toNat := by
  intro same
  apply different
  apply sound.distinct fd first otherFd second foundFirst foundSecond
  have firstPositive := (sound.entry fd first foundFirst).2.1
  have secondPositive := (sound.entry otherFd second foundSecond).2.1
  omega

end Sound

/-! ## Adding and changing a channel -/

variable {address : Nat} {channel : Channel}

/-- A channel that only its events and its index tell from the one at its address. -/
structure Renews (system : PollerSystem PollPoller) (address : Nat) (channel : Channel) :
    Prop where
  fd : channel.fd = (system.channels address).fd
  address : channel.address = address
  usual : channel.Usual

theorem Sound.renew (sound : Sound system) (renews : Renews system address channel)
    {poller : PollPoller}
    (inStep : InStep ⟨poller, Function.update system.channels address channel⟩)
    (fresh : ∀ fd other, (Function.update system.channels address channel other).index < 0 →
      poller.channels fd ≠ some other) :
    Sound ⟨poller, Function.update system.channels address channel⟩ where
  toInStep := inStep
  address := by
    apply (Function.forall_update_iff system.channels
      fun other (renewed : Channel) => renewed.address = other).mpr
    exact ⟨renews.address, fun other _ => sound.address other⟩
  usual := by
    apply (Function.forall_update_iff system.channels
      fun _ (renewed : Channel) => renewed.Usual).mpr
    exact ⟨renews.usual, fun other _ => sound.usual other⟩
  descriptor := by
    apply (Function.forall_update_iff system.channels
      fun _ (renewed : Channel) => 0 ≤ renewed.fd).mpr
    constructor
    · rw [renews.fd]
      exact sound.descriptor address
    · exact fun other _ => sound.descriptor other
  injective first second same := by
    have fds (other : Nat) : (Function.update system.channels address channel other).fd =
        (system.channels other).fd := by
      by_cases here : other = address
      · rw [here, Function.update_self, renews.fd]
      · rw [Function.update_of_ne here]
    apply sound.injective
    rw [← fds, ← fds]
    exact same
  fresh := fresh

theorem entered_cases (sound : Sound system) (renews : Renews system address channel)
    (free : system.poller.channels channel.fd = none) {fd : Int} {other : Nat}
    (found : Function.update system.poller.channels channel.fd (some address) fd = some other) :
    fd = channel.fd ∧ other = address ∨
      system.poller.channels fd = some other ∧ other ≠ address := by
  by_cases here : fd = channel.fd
  · rw [here, Function.update_self] at found
    exact .inl ⟨here, (Option.some.inj found).symm⟩
  · rw [Function.update_of_ne here] at found
    apply Or.inr
    apply And.intro found
    intro same
    rw [same] at found
    have own := (sound.entry fd address found).1
    rw [← own, ← renews.fd, free] at found
    cases found

theorem Sound.add (sound : Sound system) (renews : Renews system address channel)
    (free : system.poller.channels channel.fd = none) (enabled : channel.isNoneEvent = false) :
    Sound ⟨⟨system.poller.pollfds ++ [⟨channel.fd, channel.events.setWidth 16, 0⟩],
        Function.update system.poller.channels channel.fd (some address)⟩,
      Function.update system.channels address
        { channel with index := system.poller.pollfds.length }⟩ := by
  have renewed : Renews system address
      { channel with index := system.poller.pollfds.length } :=
    ⟨renews.fd, renews.address, renews.usual⟩
  have spelled : (⟨channel.fd, channel.events.setWidth 16, 0⟩ : PollFd).For
      { channel with index := system.poller.pollfds.length } := by
    constructor
    · exact setWidth_events renews.usual
    · change channel.fd = if channel.isNoneEvent then _ else channel.fd
      rw [enabled]
      rfl
  apply sound.renew renewed
  · constructor
    · intro fd other found
      dsimp only
      rcases entered_cases sound renews free found with ⟨here, rfl⟩ | ⟨before, different⟩
      · rw [Function.update_self]
        exact ⟨here.symm, Int.natCast_nonneg _, _, by simp, spelled⟩
      · rw [Function.update_of_ne different]
        rcases sound.entry fd other before with ⟨own, positive, pfd, entry, spells⟩
        have inside := sound.index_lt before
        exact ⟨own, positive, pfd, by rw [List.getElem?_append_left inside, entry], spells⟩
    · intro fd first otherFd second foundFirst foundSecond same
      dsimp only at same
      rcases entered_cases sound renews free foundFirst with
        ⟨_, rfl⟩ | ⟨beforeFirst, differentFirst⟩
      · rcases entered_cases sound renews free foundSecond with
          ⟨_, rfl⟩ | ⟨beforeSecond, differentSecond⟩
        · rfl
        · have inside := sound.index_lt beforeSecond
          rw [Function.update_self, Function.update_of_ne differentSecond] at same
          dsimp only at same
          omega
      · rw [Function.update_of_ne differentFirst] at same
        rcases entered_cases sound renews free foundSecond with
          ⟨_, rfl⟩ | ⟨beforeSecond, differentSecond⟩
        · have inside := sound.index_lt beforeFirst
          rw [Function.update_self] at same
          dsimp only at same
          omega
        · rw [Function.update_of_ne differentSecond] at same
          exact sound.distinct fd first otherFd second beforeFirst beforeSecond same
    · intro position inside
      dsimp only at inside ⊢
      rw [List.length_append, List.length_singleton] at inside
      by_cases last : position = system.poller.pollfds.length
      · apply Exists.intro channel.fd
        apply Exists.intro address
        rw [Function.update_self, Function.update_self, last]
        exact ⟨rfl, rfl⟩
      · rcases sound.owned position (by omega) with ⟨fd, other, mapped, own⟩
        have here : fd ≠ channel.fd := by
          intro same
          rw [same, free] at mapped
          cases mapped
        have entered : Function.update system.poller.channels channel.fd (some address) fd =
            some other := by rw [Function.update_of_ne here, mapped]
        apply Exists.intro fd
        apply Exists.intro other
        rcases entered_cases sound renews free entered with ⟨same, _⟩ | ⟨_, different⟩
        · exact absurd same here
        · rw [Function.update_of_ne different]
          exact ⟨entered, own⟩
  · intro fd other negative found
    rcases entered_cases sound renews free found with ⟨_, rfl⟩ | ⟨before, different⟩
    · rw [Function.update_self] at negative
      dsimp only at negative
      omega
    · rw [Function.update_of_ne different] at negative
      exact sound.fresh fd other negative before

/-- The array and the indices stay as they are while only one channel's entry is
rewritten to its new events. -/
theorem Sound.rewrite (sound : Sound system) (renews : Renews system address channel)
    (sameIndex : channel.index = (system.channels address).index)
    (mapped : system.poller.channels channel.fd = some address) {pfd : PollFd}
    (spells : pfd.For channel) :
    Sound ⟨⟨system.poller.pollfds.set channel.index.toNat pfd, system.poller.channels⟩,
      Function.update system.channels address channel⟩ := by
  have inside := sound.index_lt mapped
  have indices (other : Nat) : (Function.update system.channels address channel other).index =
      (system.channels other).index := by
    by_cases here : other = address
    · rw [here, Function.update_self, sameIndex]
    · rw [Function.update_of_ne here]
  apply sound.renew renews
  · constructor
    · intro fd other found
      change system.poller.channels fd = some other at found
      dsimp only
      rw [indices]
      rcases sound.entry fd other found with ⟨own, positive, old, entry, spelled⟩
      by_cases here : other = address
      · subst here
        rw [Function.update_self, renews.fd, sameIndex]
        apply And.intro own
        apply And.intro positive
        exact ⟨pfd, List.getElem?_set_self inside, spells⟩
      · rw [Function.update_of_ne here]
        apply And.intro own
        apply And.intro positive
        have apart : channel.index.toNat ≠ (system.channels other).index.toNat := by
          rw [sameIndex]
          exact (sound.index_ne found mapped here).symm
        exact ⟨old, by rw [List.getElem?_set_ne apart, entry], spelled⟩
    · intro fd first otherFd second foundFirst foundSecond same
      dsimp only at same
      rw [indices, indices] at same
      exact sound.distinct fd first otherFd second foundFirst foundSecond same
    · intro position within
      dsimp only at within ⊢
      rw [List.length_set] at within
      rcases sound.owned position within with ⟨fd, other, found, own⟩
      exact ⟨fd, other, found, by rw [indices, own]⟩
  · intro fd other negative
    rw [indices] at negative
    exact sound.fresh fd other negative

theorem Sound.refuse (sound : Sound system) (renews : Renews system address channel)
    (absent : system.poller.channels channel.fd ≠ some address) :
    Sound ⟨system.poller, Function.update system.channels address channel⟩ := by
  have other_of_mapped {fd : Int} {other : Nat}
      (found : system.poller.channels fd = some other) : other ≠ address := by
    intro same
    rw [same] at found
    rw [renews.fd, (sound.entry fd address found).1] at absent
    exact absent found
  apply sound.renew renews
  · constructor
    · intro fd other found
      dsimp only
      rw [Function.update_of_ne (other_of_mapped found)]
      exact sound.entry fd other found
    · intro fd first otherFd second foundFirst foundSecond same
      dsimp only at same
      rw [Function.update_of_ne (other_of_mapped foundFirst),
        Function.update_of_ne (other_of_mapped foundSecond)] at same
      exact sound.distinct fd first otherFd second foundFirst foundSecond same
    · intro position within
      rcases sound.owned position within with ⟨fd, other, found, own⟩
      dsimp only
      exact ⟨fd, other, found, by rw [Function.update_of_ne (other_of_mapped found), own]⟩
  · intro fd other negative found
    rw [Function.update_of_ne (other_of_mapped found)] at negative
    exact sound.fresh fd other negative found

/-! ## Removing a channel -/

theorem getElem?_fill (pollfds : List PollFd) (hole position : Nat) (last : PollFd) :
    ((pollfds.set hole last).dropLast)[position]? =
      if position < pollfds.length - 1 then
        if position = hole then some last else pollfds[position]?
      else none := by
  rw [List.getElem?_dropLast, List.length_set]
  split
  · next inside =>
    by_cases here : position = hole
    · rw [if_pos here, here, List.getElem?_set_self (by omega)]
    · rw [if_neg here, List.getElem?_set_ne (Ne.symm here)]
  · rfl

theorem erased_iff (sound : Sound system)
    (mapped : system.poller.channels (system.channels address).fd = some address)
    (fd : Int) (other : Nat) :
    Function.update system.poller.channels (system.channels address).fd none fd = some other ↔
      system.poller.channels fd = some other ∧ other ≠ address := by
  by_cases here : fd = (system.channels address).fd
  · rw [here, Function.update_self]
    constructor
    · exact nofun
    · intro found
      rw [mapped] at found
      exact absurd (Option.some.inj found.1).symm found.2
  · rw [Function.update_of_ne here]
    constructor
    · intro found
      apply And.intro found
      intro same
      rw [same] at found
      exact here (sound.entry fd address found).1.symm
    · intro found
      exact found.1

theorem Sound.removeLast (sound : Sound system)
    (mapped : system.poller.channels (system.channels address).fd = some address)
    (atEnd : (system.channels address).index.toNat = system.poller.pollfds.length - 1) :
    Sound { system with poller := ⟨system.poller.pollfds.dropLast,
      Function.update system.poller.channels (system.channels address).fd none⟩ } where
  entry fd other found := by
    rcases (erased_iff sound mapped fd other).mp found with ⟨before, different⟩
    rcases sound.entry fd other before with ⟨own, positive, pfd, entry, spells⟩
    apply And.intro own
    apply And.intro positive
    have inside := sound.index_lt before
    have apart := sound.index_ne before mapped different
    have front : (system.channels other).index.toNat < system.poller.pollfds.length - 1 := by
      omega
    exact ⟨pfd, by rw [List.getElem?_dropLast, if_pos front, entry], spells⟩
  distinct fd first otherFd second foundFirst foundSecond same := by
    have beforeFirst := ((erased_iff sound mapped fd first).mp foundFirst).1
    have beforeSecond := ((erased_iff sound mapped otherFd second).mp foundSecond).1
    exact sound.distinct fd first otherFd second beforeFirst beforeSecond same
  owned position within := by
    rw [List.length_dropLast] at within
    rcases sound.owned position (by omega) with ⟨fd, other, found, own⟩
    have different : other ≠ address := by
      intro same
      rw [same] at own
      omega
    exact ⟨fd, other, (erased_iff sound mapped fd other).mpr ⟨found, different⟩, own⟩
  address := sound.address
  usual := sound.usual
  descriptor := sound.descriptor
  injective := sound.injective
  fresh fd other negative found :=
    sound.fresh fd other negative ((erased_iff sound mapped fd other).mp found).1

theorem Sound.last_owner (sound : Sound system) {last : PollFd}
    (found : system.poller.pollfds.getLast? = some last) :
    ∃ moved, system.poller.channels (if last.fd < 0 then -last.fd - 1 else last.fd) =
        some moved ∧
      (system.channels moved).index = (system.poller.pollfds.length - 1 : Nat) ∧
      last.For (system.channels moved) := by
  rw [List.getLast?_eq_getElem?] at found
  have inside := (List.getElem?_eq_some_iff.mp found).1
  rcases sound.owned _ inside with ⟨fd, moved, mapped, own⟩
  rcases sound.entry fd moved mapped with ⟨ownFd, _, pfd, entry, spells⟩
  rw [own, Int.toNat_natCast, found] at entry
  cases entry
  have positive := sound.descriptor moved
  have decoded : (if last.fd < 0 then -last.fd - 1 else last.fd) = fd := by
    rw [spells.fd, ← ownFd]
    cases (system.channels moved).isNoneEvent
    · simp
      omega
    · simp
      omega
  rw [decoded]
  exact ⟨moved, mapped, own, spells⟩

theorem Sound.removeSwap (sound : Sound system) {moved : Nat} {last : PollFd}
    (mapped : system.poller.channels (system.channels address).fd = some address)
    (inner : (system.channels address).index.toNat ≠ system.poller.pollfds.length - 1)
    (movedMapped : system.poller.channels (system.channels moved).fd = some moved)
    (movedIndex : (system.channels moved).index = (system.poller.pollfds.length - 1 : Nat))
    (spells : last.For (system.channels moved)) :
    Sound ⟨⟨(system.poller.pollfds.set (system.channels address).index.toNat last).dropLast,
        Function.update system.poller.channels (system.channels address).fd none⟩,
      Function.update system.channels moved
        { system.channels moved with index := (system.channels address).index }⟩ := by
  have ownPositive := (sound.entry _ address mapped).2.1
  have inside := sound.index_lt mapped
  have different : moved ≠ address := by
    intro same
    rw [same] at movedIndex
    omega
  have renewed : Renews system moved
      { system.channels moved with index := (system.channels address).index } :=
    ⟨rfl, sound.address moved, sound.usual moved⟩
  apply sound.renew renewed
  · constructor
    · intro fd other found
      rcases (erased_iff sound mapped fd other).mp found with ⟨before, remains⟩
      rcases sound.entry fd other before with ⟨own, positive, pfd, entry, spelled⟩
      dsimp only
      by_cases here : other = moved
      · subst here
        rw [Function.update_self]
        apply And.intro own
        apply And.intro ownPositive
        apply Exists.intro last
        have front : (system.channels address).index.toNat <
            system.poller.pollfds.length - 1 := by
          omega
        constructor
        · dsimp only
          rw [getElem?_fill, if_pos front, if_pos rfl]
        · exact ⟨spells.events, spells.fd⟩
      · rw [Function.update_of_ne here]
        apply And.intro own
        apply And.intro positive
        have within := sound.index_lt before
        have notLast := sound.index_ne before movedMapped here
        have notHole := sound.index_ne before mapped remains
        exact ⟨pfd, by rw [getElem?_fill, if_pos (by omega), if_neg notHole, entry], spelled⟩
    · intro fd first otherFd second foundFirst foundSecond same
      rcases (erased_iff sound mapped fd first).mp foundFirst with ⟨beforeFirst, remainsFirst⟩
      rcases (erased_iff sound mapped otherFd second).mp foundSecond with
        ⟨beforeSecond, remainsSecond⟩
      dsimp only at same
      by_cases here : first = moved
      · by_cases hereToo : second = moved
        · rw [here, hereToo]
        · rw [here, Function.update_self, Function.update_of_ne hereToo] at same
          exact absurd (sound.distinct _ second _ address beforeSecond mapped same.symm)
            remainsSecond
      · by_cases hereToo : second = moved
        · rw [hereToo, Function.update_self, Function.update_of_ne here] at same
          exact absurd (sound.distinct _ first _ address beforeFirst mapped same) remainsFirst
        · rw [Function.update_of_ne here, Function.update_of_ne hereToo] at same
          exact sound.distinct fd first otherFd second beforeFirst beforeSecond same
    · intro position within
      dsimp only at within ⊢
      rw [List.length_dropLast, List.length_set] at within
      by_cases hole : position = (system.channels address).index.toNat
      · apply Exists.intro (system.channels moved).fd
        apply Exists.intro moved
        rw [Function.update_self]
        constructor
        · exact (erased_iff sound mapped _ moved).mpr ⟨movedMapped, different⟩
        · dsimp only
          omega
      · rcases sound.owned position (by omega) with ⟨fd, other, found, own⟩
        have remains : other ≠ address := by
          intro same
          rw [same] at own
          omega
        have notMoved : other ≠ moved := by
          intro same
          rw [same] at own
          omega
        apply Exists.intro fd
        apply Exists.intro other
        rw [Function.update_of_ne notMoved]
        exact ⟨(erased_iff sound mapped fd other).mpr ⟨found, remains⟩, own⟩
  · intro fd other negative found
    have before := ((erased_iff sound mapped fd other).mp found).1
    by_cases here : other = moved
    · rw [here, Function.update_self] at negative
      dsimp only at negative
      omega
    · rw [Function.update_of_ne here] at negative
      exact sound.fresh fd other negative before

theorem Sound.remove (sound : Sound system) (address : Nat) :
    ∃ next, removeChannel system address = some next ∧ Sound next := by
  rw [removeChannel]
  dsimp only
  split
  · exact ⟨system, rfl, sound⟩
  · next ready =>
    have mapped : system.poller.channels (system.channels address).fd = some address := by
      by_contra absent
      exact ready (.inl absent)
    have positive := (sound.entry _ address mapped).2.1
    have inside := sound.index_lt mapped
    rw [if_neg (by omega), if_neg (by omega)]
    cases found : system.poller.pollfds.getLast? with
    | none =>
        rw [List.getLast?_eq_none_iff.mp found] at inside
        cases inside
    | some last =>
        dsimp only
        split
        · next atEnd => exact ⟨_, rfl, sound.removeLast mapped atEnd⟩
        · next inner =>
          rcases sound.last_owner found with ⟨moved, named, movedIndex, spells⟩
          have movedMapped := sound.mapped_self named
          have different : moved ≠ address := by
            intro same
            rw [same] at movedIndex
            omega
          have remaining := (erased_iff sound mapped _ moved).mpr ⟨named, different⟩
          rw [remaining]
          exact ⟨_, rfl, sound.removeSwap mapped inner movedMapped movedIndex spells⟩

/-! ## Every sequence of calls -/

theorem renews_change (sound : Sound system) (address : Nat) (change : Channel.EventChange) :
    Renews system address ((system.channels address).change change) where
  fd := Channel.change_fd _ _
  address := (Channel.change_address _ _).trans (sound.address address)
  usual := (sound.usual address).change change

theorem known_entry (sound : Sound system) {address : Nat}
    (mapped : system.poller.channels (system.channels address).fd = some address)
    (change : Channel.EventChange) : ∃ pfd : PollFd,
    system.poller.updateChannel ((system.channels address).change change) =
      ⟨true, ⟨system.poller.pollfds.set ((system.channels address).change change).index.toNat
          ⟨if ((system.channels address).change change).isNoneEvent then
              -((system.channels address).change change).fd - 1 else pfd.fd,
            ((system.channels address).change change).events.setWidth 16, 0⟩,
        system.poller.channels⟩, (system.channels address).change change⟩ ∧
      pfd.For (system.channels address) := by
  have renews := renews_change sound address change
  rcases sound.entry _ address mapped with ⟨_, positive, pfd, entry, spells⟩
  apply Exists.intro pfd
  constructor
  · apply updateChannel_known
    · rw [Channel.change_index]
      exact positive
    · rw [renews.fd, renews.address, mapped]
    · rw [Channel.change_index]
      exact entry
  · exact spells

/-- A permitted call is defined and keeps everything in step. -/
theorem Sound.step (sound : Sound system) (label : Nat × PollCall)
    (permitted : Permits system label) :
    ∃ next, system.stepPoll label = some next ∧ Sound next := by
  rcases label with ⟨address, call⟩
  cases call with
  | removeChannel => exact sound.remove address
  | updateChannel change =>
      have renews := renews_change sound address change
      have index : ((system.channels address).change change).index =
          (system.channels address).index := Channel.change_index _ _
      apply Exists.intro _
      apply And.intro rfl
      dsimp only
      simp only [Permits] at permitted
      by_cases mapped : system.poller.channels (system.channels address).fd = some address
      · rw [if_pos mapped] at permitted
        rcases known_entry sound mapped change with ⟨pfd, known, spells⟩
        rw [known]
        apply sound.rewrite renews index (by rw [renews.fd, mapped])
        constructor
        · exact setWidth_events renews.usual
        · dsimp only
          cases permitted with
          | inl none =>
              rw [none]
              rfl
          | inr some =>
              have own := spells.fd
              rw [some, if_neg (by simp), ← renews.fd] at own
              rw [own]
      · rw [if_neg mapped] at permitted
        have absent : system.poller.channels ((system.channels address).change change).fd ≠
            some address := by
          rw [renews.fd]
          exact mapped
        by_cases negative : (system.channels address).index < 0
        · have free := sound.free mapped
          rw [← renews.fd] at free
          rw [updateChannel_new renews.address (by rw [index]; exact negative) free]
          exact sound.add renews free (permitted negative)
        · rw [updateChannel_refused (by rw [index]; omega) (by rw [renews.address]; exact absent)]
          exact sound.refuse renews absent

theorem permits_of_inStep (sound : Sound system) {label : Nat × PollCall}
    {next : PollerSystem PollPoller} (taken : system.stepPoll label = some next)
    (inStep : InStep next) : Permits system label := by
  rcases label with ⟨address, call⟩
  cases call with
  | removeChannel => exact trivial
  | updateChannel change =>
      have renews := renews_change sound address change
      have positive := sound.descriptor address
      cases Option.some.inj taken
      dsimp only at inStep
      simp only [Permits]
      split
      · next mapped =>
        rcases known_entry sound mapped change with ⟨pfd, known, spells⟩
        rw [known] at inStep
        rcases inStep.entry _ address mapped with ⟨_, _, entry, found, after⟩
        dsimp only at found after
        rw [Function.update_self] at found after
        have inside := sound.index_lt mapped
        have index := Channel.change_index (system.channels address) change
        rw [index, List.getElem?_set_self inside] at found
        cases found
        by_contra neither
        rw [not_or] at neither
        have enabled : ((system.channels address).change change).isNoneEvent = false := by
          simpa using neither.1
        have disabled : (system.channels address).isNoneEvent = true := by
          simpa using neither.2
        have own := after.fd
        have old := spells.fd
        rw [disabled, if_pos rfl] at old
        dsimp only at own
        rw [enabled, if_neg (by simp), if_neg (by simp), old, renews.fd] at own
        omega
      · next mapped =>
        intro negative
        have free := sound.free mapped
        have index := Channel.change_index (system.channels address) change
        rw [← renews.fd] at free
        rw [updateChannel_new renews.address (by rw [index]; exact negative) free] at inStep
        have entered : Function.update system.poller.channels
            ((system.channels address).change change).fd (some address)
            ((system.channels address).change change).fd = some address :=
          Function.update_self ..
        rcases inStep.entry _ address entered with ⟨_, _, entry, found, after⟩
        dsimp only at found after
        rw [Function.update_self] at found after
        dsimp only at found
        rw [Int.toNat_natCast, List.getElem?_append_right (Nat.le_refl _), Nat.sub_self] at found
        cases found
        have own := after.fd
        by_contra none
        have empty : ((system.channels address).change change).isNoneEvent = true := by
          simpa using none
        change ((system.channels address).change change).fd =
          if ((system.channels address).change change).isNoneEvent then
            -((system.channels address).change change).fd - 1
          else ((system.channels address).change change).fd at own
        rw [empty, if_pos rfl, renews.fd] at own
        omega

theorem create_sound {fds : Nat → Int} (descriptors : ∀ address, 0 ≤ fds address)
    (distinct : Function.Injective fds) : Sound (PollerSystem.create empty fds) where
  entry _ _ found := by cases found
  distinct _ _ _ _ found := by cases found
  owned _ within := by cases within
  address _ := rfl
  usual _ := .inl rfl
  descriptor := descriptors
  injective _ _ same := distinct same
  fresh _ _ _ found := by cases found

end PollPoller

/-- Channels with distinct descriptors: array and channels are in step all along a run
exactly when each of its calls is permitted. -/
theorem poll_run_inStep_iff (fds : Nat → Int) (descriptors : ∀ address, 0 ≤ fds address)
    (distinct : Function.Injective fds) (calls : List (Nat × PollCall)) :
    Machine.RunHolds PollerSystem.stepPoll PollPoller.InStep
        (PollerSystem.create PollPoller.empty fds) calls ↔
      Machine.RunPermits PollerSystem.stepPoll PollPoller.Permits
        (PollerSystem.create PollPoller.empty fds) calls := by
  apply Machine.runHolds_iff_runPermits (fun _ sound => PollPoller.Sound.toInStep sound)
  · intro system label sound permitted
    exact sound.step label permitted
  · intro system label next sound taken inStep
    exact PollPoller.permits_of_inStep sound taken inStep
  · exact PollPoller.create_sound descriptors distinct

/-- Two channels, one of which is disabled again and then removed. -/
theorem poll_run_inStep_iff_two :
    Machine.RunHolds PollerSystem.stepPoll PollPoller.InStep
      (PollerSystem.create PollPoller.empty Nat.cast)
      [(0, .updateChannel .enableReading), (1, .updateChannel .enableWriting),
        (0, .updateChannel .disableReading), (0, .removeChannel)] := by
  apply (poll_run_inStep_iff Nat.cast (fun _ => Int.natCast_nonneg _)
    (fun _ _ same => Int.ofNat.inj same) _).mpr
  apply And.intro (fun _ => rfl)
  intro first taken
  cases taken
  apply And.intro (fun _ => rfl)
  intro second taken
  cases taken
  apply And.intro (Or.inl rfl)
  intro third taken
  cases taken
  apply And.intro trivial
  intro fourth taken
  exact trivial

/-- A channel that is disabled and enabled again keeps its negative descriptor. -/
theorem reenabled_channel_out_of_step :
    ¬ Machine.RunHolds PollerSystem.stepPoll PollPoller.InStep
      (PollerSystem.create PollPoller.empty Nat.cast)
      [(0, .updateChannel .enableReading), (0, .updateChannel .disableReading),
        (0, .updateChannel .enableReading)] := by
  intro run
  rcases run with ⟨_, first, taken, _, second, takenNext, _, third, takenLast, inStep⟩
  cases taken
  cases takenNext
  cases takenLast
  rcases inStep.entry 0 0 rfl with ⟨_, _, pfd, found, spells⟩
  have entry : some (⟨-1, 3, 0⟩ : PollFd) = some pfd := found
  cases entry
  exact absurd spells.fd (by decide)

end MyBookSources.Net
