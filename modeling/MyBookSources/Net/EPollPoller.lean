import MyBookSources.Net.Channel
import Mathlib.Logic.Function.Basic

/-! # The epoll poller

`net::EPollPoller`: the map from descriptors to channels, mirrored into the
kernel's interest list by `epoll_ctl`. Whether an `epoll_ctl` call succeeds is
an argument.
-/

namespace MyBookSources.Net

def kNew : Int := -1
def kAdded : Int := 1
def kDeleted : Int := 2

inductive CtlOperation
  | XEPOLL_CTL_ADD
  | XEPOLL_CTL_MOD
  | XEPOLL_CTL_DEL
  deriving DecidableEq

/-- `channels` maps a descriptor to the address of its channel; `registered` is
the interest list of the kernel. -/
structure EPollPoller where
  channels : Int → Option Nat
  registered : Int → Option Events

namespace EPollPoller

def empty : EPollPoller := ⟨fun _ => none, fun _ => none⟩

def hasChannel (poller : EPollPoller) (channel : Channel) : Bool :=
  poller.channels channel.fd == some channel.address

/-- One `epoll_ctl` call, which changes the interest list when it succeeds. -/
def update (poller : EPollPoller) (operation : CtlOperation) (channel : Channel)
    (succeeds : Bool) : Bool × EPollPoller :=
  if succeeds then
    let interest :=
      match operation with
      | .XEPOLL_CTL_ADD => some channel.events
      | .XEPOLL_CTL_MOD => some channel.events
      | .XEPOLL_CTL_DEL => none
    (true, { poller with
      registered := Function.update poller.registered channel.fd interest })
  else (false, poller)

structure Updated where
  answer : Bool
  poller : EPollPoller
  channel : Channel

def updateChannel (poller : EPollPoller) (channel : Channel) (succeeds : Bool) : Updated :=
  if channel.index = kNew ∨ channel.index = kDeleted then
    if channel.index = kNew then
      if (poller.channels channel.fd).isSome then ⟨false, poller, channel⟩
      else
        let entered := { poller with
          channels := Function.update poller.channels channel.fd (some channel.address) }
        let added := { channel with index := kAdded }
        let result := entered.update .XEPOLL_CTL_ADD added succeeds
        ⟨result.1, result.2, added⟩
    else if poller.channels channel.fd ≠ some channel.address then ⟨false, poller, channel⟩
    else
      let added := { channel with index := kAdded }
      let result := poller.update .XEPOLL_CTL_ADD added succeeds
      ⟨result.1, result.2, added⟩
  else if poller.channels channel.fd ≠ some channel.address ∨ channel.index ≠ kAdded then
    ⟨false, poller, channel⟩
  else if channel.isNoneEvent then
    let result := poller.update .XEPOLL_CTL_DEL channel succeeds
    if result.1 then ⟨true, result.2, { channel with index := kDeleted }⟩
    else ⟨false, result.2, channel⟩
  else
    let result := poller.update .XEPOLL_CTL_MOD channel succeeds
    ⟨result.1, result.2, channel⟩

def removeChannel (poller : EPollPoller) (channel : Channel) (succeeds : Bool) :
    EPollPoller × Channel :=
  if poller.channels channel.fd ≠ some channel.address ∨ channel.isNoneEvent = false then
    (poller, channel)
  else if channel.index ≠ kAdded ∧ channel.index ≠ kDeleted then (poller, channel)
  else
    let erased := { poller with channels := Function.update poller.channels channel.fd none }
    let cleared :=
      if channel.index = kAdded then (erased.update .XEPOLL_CTL_DEL channel succeeds).2
      else erased
    (cleared, { channel with index := kNew })

@[simp] theorem update_channels (poller : EPollPoller) (operation : CtlOperation)
    (channel : Channel) (succeeds : Bool) :
    (poller.update operation channel succeeds).2.channels = poller.channels := by
  cases succeeds <;> rfl

@[simp] theorem update_answer (poller : EPollPoller) (operation : CtlOperation)
    (channel : Channel) (succeeds : Bool) :
    (poller.update operation channel succeeds).1 = succeeds := by
  cases succeeds <;> rfl

/-! ## The branches of updateChannel -/

section Branches

variable {poller : EPollPoller} {channel : Channel}

theorem updateChannel_taken (new : channel.index = kNew)
    (taken : poller.channels channel.fd ≠ none) (succeeds : Bool) :
    poller.updateChannel channel succeeds = ⟨false, poller, channel⟩ := by
  rw [updateChannel, if_pos (.inl new), if_pos new, if_pos (Option.isSome_iff_ne_none.mpr taken)]

theorem updateChannel_free (new : channel.index = kNew)
    (free : poller.channels channel.fd = none) (succeeds : Bool) :
    poller.updateChannel channel succeeds =
      ⟨succeeds, (update { poller with
          channels := Function.update poller.channels channel.fd (some channel.address) }
        .XEPOLL_CTL_ADD channel succeeds).2, { channel with index := kAdded }⟩ := by
  rw [updateChannel, if_pos (.inl new), if_pos new, if_neg (by simp [free])]
  cases succeeds <;> rfl

theorem updateChannel_deleted (deleted : channel.index = kDeleted)
    (mapped : poller.channels channel.fd = some channel.address) (succeeds : Bool) :
    poller.updateChannel channel succeeds =
      ⟨succeeds, (poller.update .XEPOLL_CTL_ADD channel succeeds).2,
        { channel with index := kAdded }⟩ := by
  have notNew : channel.index ≠ kNew := by
    rw [deleted]
    decide
  rw [updateChannel, if_pos (.inr deleted), if_neg notNew, if_neg (by simp [mapped])]
  cases succeeds <;> rfl

theorem updateChannel_none (added : channel.index = kAdded)
    (mapped : poller.channels channel.fd = some channel.address)
    (empty : channel.isNoneEvent = true) (succeeds : Bool) :
    poller.updateChannel channel succeeds =
      ⟨succeeds, (poller.update .XEPOLL_CTL_DEL channel succeeds).2,
        if succeeds then { channel with index := kDeleted } else channel⟩ := by
  rw [updateChannel, if_neg (by rw [added]; decide), if_neg (by simp [mapped, added]),
    if_pos empty]
  cases succeeds <;> rfl

theorem updateChannel_some (added : channel.index = kAdded)
    (mapped : poller.channels channel.fd = some channel.address)
    (enabled : channel.isNoneEvent = false) (succeeds : Bool) :
    poller.updateChannel channel succeeds =
      ⟨succeeds, (poller.update .XEPOLL_CTL_MOD channel succeeds).2, channel⟩ := by
  rw [updateChannel, if_neg (by rw [added]; decide), if_neg (by simp [mapped, added]),
    if_neg (by simp [enabled])]
  cases succeeds <;> rfl

theorem updateChannel_unknown (index : channel.index ≠ kNew)
    (unknown : poller.channels channel.fd ≠ some channel.address) (succeeds : Bool) :
    poller.updateChannel channel succeeds = ⟨false, poller, channel⟩ := by
  have refused : poller.channels channel.fd ≠ some channel.address ∨ channel.index ≠ kAdded :=
    .inl unknown
  rw [updateChannel, if_neg index, if_pos unknown, if_pos refused, ite_self]

end Branches

/-- The operation for which `updateChannel` calls `update`, if it does. -/
def issued (poller : EPollPoller) (channel : Channel) : Option CtlOperation :=
  if channel.index = kNew then
    if (poller.channels channel.fd).isSome then none else some .XEPOLL_CTL_ADD
  else if poller.channels channel.fd ≠ some channel.address then none
  else if channel.index = kDeleted then some .XEPOLL_CTL_ADD
  else if channel.index ≠ kAdded then none
  else if channel.isNoneEvent then some .XEPOLL_CTL_DEL
  else some .XEPOLL_CTL_MOD

/-- The branches of `updateChannel`. -/
inductive Issues (poller : EPollPoller) (channel : Channel) : Prop
  | refuses : poller.issued channel = none →
      (∀ succeeds, poller.updateChannel channel succeeds = ⟨false, poller, channel⟩) →
      Issues poller channel
  | enters : poller.issued channel = some .XEPOLL_CTL_ADD →
      (channel.index = kNew ∧ poller.channels channel.fd = none ∨
        channel.index = kDeleted ∧ poller.channels channel.fd = some channel.address) →
      (∀ succeeds, poller.updateChannel channel succeeds =
        ⟨succeeds, (EPollPoller.update { poller with
            channels := Function.update poller.channels channel.fd (some channel.address) }
          .XEPOLL_CTL_ADD channel succeeds).2, { channel with index := kAdded }⟩) →
      Issues poller channel
  | modifies : poller.issued channel = some .XEPOLL_CTL_MOD → channel.index = kAdded →
      poller.channels channel.fd = some channel.address → channel.isNoneEvent = false →
      (∀ succeeds, poller.updateChannel channel succeeds =
        ⟨succeeds, (poller.update .XEPOLL_CTL_MOD channel succeeds).2, channel⟩) →
      Issues poller channel
  | erases : poller.issued channel = some .XEPOLL_CTL_DEL → channel.index = kAdded →
      poller.channels channel.fd = some channel.address → channel.isNoneEvent = true →
      (∀ succeeds, poller.updateChannel channel succeeds =
        ⟨succeeds, (poller.update .XEPOLL_CTL_DEL channel succeeds).2,
          if succeeds then { channel with index := kDeleted } else channel⟩) →
      Issues poller channel

theorem issues (poller : EPollPoller) (channel : Channel) : Issues poller channel := by
  by_cases new : channel.index = kNew
  · cases taken : (poller.channels channel.fd).isSome with
    | true =>
        apply Issues.refuses
        · rw [issued, if_pos new, if_pos taken]
        · exact updateChannel_taken new (Option.isSome_iff_ne_none.mp taken)
    | false =>
        have free : poller.channels channel.fd = none := by simpa using taken
        apply Issues.enters
        · rw [issued, if_pos new, taken]
          rfl
        · exact .inl ⟨new, free⟩
        · exact updateChannel_free new free
  by_cases mapped : poller.channels channel.fd = some channel.address
  · by_cases deleted : channel.index = kDeleted
    · apply Issues.enters
      · rw [issued, if_neg new, if_neg (not_not_intro mapped), if_pos deleted]
      · exact .inr ⟨deleted, mapped⟩
      · -- the map has the entry already
        rw [Function.update_eq_self_iff.mpr mapped.symm]
        exact updateChannel_deleted deleted mapped
    by_cases added : channel.index = kAdded
    · cases none : channel.isNoneEvent with
      | true =>
          apply Issues.erases _ added mapped none
          · exact updateChannel_none added mapped none
          · rw [issued, if_neg new, if_neg (not_not_intro mapped), if_neg deleted,
              if_neg (not_not_intro added), if_pos none]
      | false =>
          apply Issues.modifies _ added mapped none
          · exact updateChannel_some added mapped none
          · rw [issued, if_neg new, if_neg (not_not_intro mapped), if_neg deleted,
              if_neg (not_not_intro added), if_neg (by simp [none])]
    · apply Issues.refuses
      · rw [issued, if_neg new, if_neg (not_not_intro mapped), if_neg deleted, if_pos added]
      · intro succeeds
        rw [updateChannel, if_neg (not_or.mpr ⟨new, deleted⟩), if_pos (.inr added)]
  · apply Issues.refuses
    · rw [issued, if_neg new, if_pos mapped]
    · exact updateChannel_unknown new mapped

/-! ## What an update keeps -/

/-- The index says whether the map holds this channel under its descriptor. -/
def Tracks (poller : EPollPoller) (channel : Channel) : Prop :=
  (channel.index = kNew ∧ poller.channels channel.fd ≠ some channel.address) ∨
    ((channel.index = kAdded ∨ channel.index = kDeleted) ∧
      poller.channels channel.fd = some channel.address)

theorem updateChannel_channel (poller : EPollPoller) (channel : Channel) (succeeds : Bool) :
    ∃ index, (poller.updateChannel channel succeeds).channel = { channel with index := index } := by
  cases issues poller channel with
  | refuses _ refused =>
      rw [refused]
      exact ⟨channel.index, rfl⟩
  | enters _ _ entered =>
      rw [entered]
      exact ⟨kAdded, rfl⟩
  | modifies _ _ _ _ modified =>
      rw [modified]
      exact ⟨channel.index, rfl⟩
  | erases _ _ _ _ erased =>
      rw [erased]
      cases succeeds with
      | true => exact ⟨kDeleted, rfl⟩
      | false => exact ⟨channel.index, rfl⟩

/-- Updating keeps index and map in step, whatever `epoll_ctl` answers. -/
theorem updateChannel_tracks {poller : EPollPoller} {channel : Channel}
    (tracks : poller.Tracks channel) (succeeds : Bool) :
    (poller.updateChannel channel succeeds).poller.Tracks
      (poller.updateChannel channel succeeds).channel := by
  cases issues poller channel with
  | refuses _ refused =>
      rw [refused]
      exact tracks
  | enters _ _ entered =>
      rw [entered]
      exact .inr ⟨.inl rfl, by simp⟩
  | modifies _ _ _ _ modified =>
      rw [modified]
      simpa [Tracks] using tracks
  | erases _ _ mapped _ erased =>
      rw [erased]
      cases succeeds with
      | true => exact .inr ⟨.inr rfl, mapped⟩
      | false => exact tracks

/-- Enabling a tracked channel that is in the map leaves it added, whatever
`epoll_ctl` answers. -/
theorem updateChannel_of_added {poller : EPollPoller} {channel : Channel}
    (added : channel.index = kAdded) (mapped : poller.channels channel.fd = some channel.address)
    (enabled : channel.isNoneEvent = false) (succeeds : Bool) :
    (poller.updateChannel channel succeeds).channel = channel ∧
      (poller.updateChannel channel succeeds).poller.channels = poller.channels := by
  rw [updateChannel_some added mapped enabled]
  exact ⟨rfl, update_channels ..⟩

theorem updateChannel_of_new {poller : EPollPoller} {channel : Channel} {succeeds : Bool}
    (new : channel.index = kNew)
    (accepted : (poller.updateChannel channel succeeds).answer = true) :
    (poller.updateChannel channel succeeds).channel = { channel with index := kAdded } ∧
      (poller.updateChannel channel succeeds).poller.channels channel.fd =
        some channel.address := by
  by_cases free : poller.channels channel.fd = none
  · rw [updateChannel_free new free, update_channels]
    exact ⟨rfl, Function.update_self ..⟩
  · rw [updateChannel_taken new free] at accepted
    cases accepted

/-- A removal leaves all as it is, or clears the entry of the map and then, where `index` says
so, that of the interest list. -/
theorem removeChannel_cases (poller : EPollPoller) (channel : Channel) (succeeds : Bool) :
    poller.removeChannel channel succeeds = (poller, channel) ∨
      ∃ erases, poller.removeChannel channel succeeds =
        ((EPollPoller.update { poller with
            channels := Function.update poller.channels channel.fd none }
          .XEPOLL_CTL_DEL channel erases).2, { channel with index := kNew }) := by
  unfold removeChannel
  split
  · exact .inl rfl
  · split
    · exact .inl rfl
    · right
      dsimp only
      split
      · exact ⟨succeeds, rfl⟩
      · exact ⟨false, rfl⟩

theorem removeChannel_of_none {poller : EPollPoller} {channel : Channel}
    (tracks : poller.Tracks channel) (none : channel.isNoneEvent = true) (succeeds : Bool) :
    (poller.removeChannel channel succeeds).1.channels channel.fd ≠ some channel.address ∧
      (poller.removeChannel channel succeeds).1.Tracks
        (poller.removeChannel channel succeeds).2 := by
  rcases tracks with ⟨new, absent⟩ | ⟨indexed, mapped⟩
  · have kept : poller.removeChannel channel succeeds = (poller, channel) := by
      simp [removeChannel, absent]
    rw [kept]
    exact ⟨absent, .inl ⟨new, absent⟩⟩
  · have erased : (poller.removeChannel channel succeeds).1.channels channel.fd = .none := by
      unfold removeChannel
      rw [if_neg (by simp [mapped, none]), if_neg (by tauto)]
      dsimp only
      split <;> simp
    have renewed : (poller.removeChannel channel succeeds).2 = { channel with index := kNew } := by
      unfold removeChannel
      rw [if_neg (by simp [mapped, none]), if_neg (by tauto)]
    refine ⟨by simp [erased], .inl ?_⟩
    rw [renewed]
    exact ⟨rfl, by simp [erased]⟩

theorem removeChannel_channel (poller : EPollPoller) (channel : Channel) (succeeds : Bool) :
    ∃ index, (poller.removeChannel channel succeeds).2 = { channel with index := index } := by
  rcases removeChannel_cases poller channel succeeds with same | ⟨_, removed⟩
  · rw [same]
    exact ⟨channel.index, rfl⟩
  · rw [removed]
    exact ⟨kNew, rfl⟩

end EPollPoller

end MyBookSources.Net
