import MyBookSources.Net.Buffer
import MyBookSources.Net.SelectEvents

/-! # The descriptor sets of select

`SelectPoller::poll` puts the descriptors it watches into two sets. On Windows a set is an
array of `FD_SETSIZE` sockets, and `FD_SET` leaves out what finds no room; elsewhere it is a bit
for each descriptor below `FD_SETSIZE`, and `FD_SET` writes beside the set for any other. The
kernel's interest list has no such limit, so the two pollers watch the same as long as there
is room.
-/

namespace MyBookSources.Net

def FD_SETSIZE : Platform → Nat
  | .posix => 1024
  | .windows => 64

/-- The descriptors in the set afterwards, none where it writes beside the set. -/
def FD_SET (platform : Platform) (fd : Int) (set : List Int) : Option (List Int) :=
  match platform with
  | .posix =>
      if 0 ≤ fd ∧ fd < FD_SETSIZE .posix then some (if fd ∈ set then set else set ++ [fd])
      else none
  | .windows =>
      if fd ∈ set then some set
      else if set.length < FD_SETSIZE .windows then some (set ++ [fd])
      else some set

def HasRoom (platform : Platform) (fds : List Int) : Prop :=
  match platform with
  | .posix => ∀ fd ∈ fds, 0 ≤ fd ∧ fd < FD_SETSIZE .posix
  | .windows => fds.length ≤ FD_SETSIZE .windows

structure FdSets where
  readfds : List Int
  writefds : List Int

/-- The descriptors that are watched for something, each with what it is watched for. -/
def watching (reads writes : Int → Bool) : Set (Int × Bool × Bool) :=
  fun entry => entry.2 = (reads entry.1, writes entry.1) ∧
    (reads entry.1 = true ∨ writes entry.1 = true)

def FdSets.interest (sets : FdSets) : Set (Int × Bool × Bool) :=
  watching (fun fd => decide (fd ∈ sets.readfds)) (fun fd => decide (fd ∈ sets.writefds))

namespace SelectPoller

/-- A test of the loop in `poll`, with what it guards. -/
def setIf (platform : Platform) (watched : Bool) (fd : Int) (set : List Int) :
    Option (List Int) :=
  if watched then FD_SET platform fd set else some set

/-- The loop of `poll` over `channels_`. -/
def fillSets (platform : Platform) (channels : Nat → Channel) :
    List (Int × Nat) → FdSets → Option FdSets
  | [], sets => some sets
  | (fd, address) :: rest, sets => do
      let events := (channels address).events
      let readfds ← setIf platform (events.has XPOLLIN) fd sets.readfds
      let writefds ← setIf platform (events.has XPOLLOUT) fd sets.writefds
      fillSets platform channels rest ⟨readfds, writefds⟩

def withEvent (channels : Nat → Channel) (bit : Events) (entries : List (Int × Nat)) : List Int :=
  (entries.filter fun entry => (channels entry.2).events.has bit).map Prod.fst

end SelectPoller

/-! ## Room -/

section Room

variable {platform : Platform} {fd : Int} {set fds : List Int}

theorem FD_SET_hasRoom (room : HasRoom platform set) {next : List Int}
    (added : FD_SET platform fd set = some next) : HasRoom platform next := by
  cases platform with
  | posix =>
      rw [FD_SET] at added
      split at added
      · next inside =>
        cases added
        split
        · exact room
        · intro other member
          rcases List.mem_append.mp member with old | new
          · exact room other old
          · rw [List.mem_singleton.mp new]
            exact inside
      · cases added
  | windows =>
      rw [FD_SET] at added
      split at added
      · cases added
        exact room
      · split at added
        · next below =>
          cases added
          rw [HasRoom, List.length_append]
          exact below
        · cases added
          exact room

theorem FD_SET_append (room : HasRoom platform (set ++ [fd])) (new : fd ∉ set) :
    FD_SET platform fd set = some (set ++ [fd]) := by
  cases platform with
  | posix =>
      have inside := room fd (List.mem_append_right _ (List.mem_singleton_self fd))
      rw [FD_SET, if_pos inside, if_neg new]
  | windows =>
      rw [HasRoom, List.length_append] at room
      have below : set.length < FD_SETSIZE .windows := room
      rw [FD_SET, if_neg new, if_pos below]

theorem HasRoom.of_subset (room : HasRoom platform set) (apart : fds.Nodup) (all : fds ⊆ set) :
    HasRoom platform fds := by
  cases platform with
  | posix =>
      intro fd member
      exact room fd (all member)
  | windows => exact Nat.le_trans (apart.subperm all).length_le room

theorem HasRoom.left (room : HasRoom platform (set ++ fds)) : HasRoom platform set := by
  cases platform with
  | posix =>
      intro fd member
      exact room fd (List.mem_append_left _ member)
  | windows =>
      rw [HasRoom, List.length_append] at room
      exact Nat.le_trans (Nat.le_add_right ..) room

theorem hasRoom_nil : HasRoom platform [] := by
  cases platform with
  | posix =>
      intro fd member
      cases member
  | windows => exact Nat.zero_le _

end Room

namespace SelectPoller

variable {platform : Platform} {channels : Nat → Channel}

theorem setIf_hasRoom {set next : List Int} {fd : Int} {watched : Bool}
    (room : HasRoom platform set) (added : setIf platform watched fd set = some next) :
    HasRoom platform next := by
  rw [setIf] at added
  split at added
  · exact FD_SET_hasRoom room added
  · cases added
    exact room

theorem fillSets_hasRoom {entries : List (Int × Nat)} {sets filled : FdSets}
    (reads : HasRoom platform sets.readfds) (writes : HasRoom platform sets.writefds)
    (done : fillSets platform channels entries sets = some filled) :
    HasRoom platform filled.readfds ∧ HasRoom platform filled.writefds := by
  induction entries generalizing sets with
  | nil =>
      cases done
      exact ⟨reads, writes⟩
  | cons entry rest induction =>
      rw [fillSets] at done
      rcases Option.bind_eq_some_iff.mp done with ⟨readfds, read, done⟩
      rcases Option.bind_eq_some_iff.mp done with ⟨writefds, written, done⟩
      exact induction (setIf_hasRoom reads read) (setIf_hasRoom writes written) done

theorem withEvent_cons (bit : Events) (fd : Int) (address : Nat) (entries : List (Int × Nat)) :
    withEvent channels bit ((fd, address) :: entries) =
      (if (channels address).events.has bit then [fd] else []) ++
        withEvent channels bit entries := by
  rw [withEvent, List.filter_cons]
  split <;> rfl

theorem setIf_append {set : List Int} {fd : Int} {watched : Bool}
    (room : HasRoom platform (set ++ if watched then [fd] else [])) (new : fd ∉ set) :
    setIf platform watched fd set = some (set ++ if watched then [fd] else []) := by
  cases watched with
  | true => exact FD_SET_append room new
  | false => rw [setIf, if_neg (by decide), if_neg (by decide), List.append_nil]

theorem not_mem_append_ite {set : List Int} {other fd : Int} {watched : Bool}
    (absent : other ∉ set) (different : other ≠ fd) :
    other ∉ set ++ if watched then [fd] else [] := by
  intro inside
  rcases List.mem_append.mp inside with old | added
  · exact absent old
  · cases watched with
    | true => exact different (List.mem_singleton.mp added)
    | false => cases added

/-- Where there is room, the loop puts every descriptor that is watched into its sets. -/
theorem fillSets_eq {entries : List (Int × Nat)} {sets : FdSets}
    (apart : entries.Pairwise fun left right => left.1 < right.1)
    (new : ∀ entry ∈ entries, entry.1 ∉ sets.readfds ∧ entry.1 ∉ sets.writefds)
    (reads : HasRoom platform (sets.readfds ++ withEvent channels XPOLLIN entries))
    (writes : HasRoom platform (sets.writefds ++ withEvent channels XPOLLOUT entries)) :
    fillSets platform channels entries sets =
      some ⟨sets.readfds ++ withEvent channels XPOLLIN entries,
        sets.writefds ++ withEvent channels XPOLLOUT entries⟩ := by
  induction entries generalizing sets with
  | nil =>
      simp [fillSets, withEvent]
  | cons entry rest induction =>
      rcases entry with ⟨fd, address⟩
      rcases List.pairwise_cons.mp apart with ⟨first, later⟩
      rcases List.forall_mem_cons.mp new with ⟨fresh, others⟩
      rw [withEvent_cons, ← List.append_assoc] at reads writes
      rw [fillSets, setIf_append reads.left fresh.1, setIf_append writes.left fresh.2]
      have kept : ∀ other ∈ rest,
          other.1 ∉ sets.readfds ++
            (if (channels address).events.has XPOLLIN then [fd] else []) ∧
          other.1 ∉ sets.writefds ++
            (if (channels address).events.has XPOLLOUT then [fd] else []) := by
        intro other member
        have absent := others other member
        -- a descriptor that comes later is not the one just set
        have different : other.1 ≠ fd := (Int.ne_of_lt (first other member)).symm
        exact ⟨not_mem_append_ite absent.1 different, not_mem_append_ite absent.2 different⟩
      have filled := @induction ⟨_, _⟩ later kept reads writes
      rw [withEvent_cons, withEvent_cons, ← List.append_assoc, ← List.append_assoc]
      exact filled

end SelectPoller

/-! ## Both pollers -/

namespace SelectLoop

variable {platform : Platform}

/-- The sets that `poll` hands to `select`. -/
def sets (loop : SelectLoop) (platform : Platform) : Option FdSets :=
  SelectPoller.fillSets platform loop.system.channels loop.entries.entries ⟨[], []⟩

/-- The descriptors of the map whose channel has the bit among its events. -/
def withEvent (loop : SelectLoop) (bit : Events) : List Int :=
  SelectPoller.withEvent loop.system.channels bit loop.entries.entries

def Fits (loop : SelectLoop) (platform : Platform) : Prop :=
  HasRoom platform (loop.withEvent XPOLLIN) ∧ HasRoom platform (loop.withEvent XPOLLOUT)

def stepCall (loop : SelectLoop) (label : Nat × ChannelCall) : SelectLoop × Option Bool :=
  (loop.call label.1 label.2, (loop.system.stepSelect label).2)

theorem withEvent_nodup (loop : SelectLoop) (bit : Events) : (loop.withEvent bit).Nodup := by
  have sorted := loop.entries.sorted.filter fun entry =>
    (loop.system.channels entry.2).events.has bit
  refine List.pairwise_map.mpr (sorted.imp ?_)
  intro left right less
  omega

theorem mem_withEvent (loop : SelectLoop) (bit : Events) (fd : Int) :
    fd ∈ loop.withEvent bit ↔
      loop.system.poller.isSet loop.system.channels bit fd = true := by
  have unfolded : fd ∈ loop.withEvent bit ↔ ∃ address,
      (fd, address) ∈ loop.entries.entries ∧
        (loop.system.channels address).events.has bit = true := by
    simp [withEvent, SelectPoller.withEvent]
  rw [unfolded, SelectPoller.isSet]
  cases mapped : loop.system.poller.channels fd with
  | none =>
      simp [loop.mapped, mapped]
  | some address =>
      simp [loop.mapped, mapped]

theorem watching_inj {reads writes reads' writes' : Int → Bool} :
    watching reads writes = watching reads' writes' ↔ reads = reads' ∧ writes = writes' := by
  constructor
  · intro same
    have each (fd : Int) : reads fd = reads' fd ∧ writes fd = writes' fd := by
      have left : watching reads writes (fd, reads fd, writes fd) ↔
          watching reads' writes' (fd, reads fd, writes fd) := by rw [same]
      have right : watching reads writes (fd, reads' fd, writes' fd) ↔
          watching reads' writes' (fd, reads' fd, writes' fd) := by rw [same]
      simp only [watching, Prod.mk.injEq] at left right
      grind
    exact ⟨funext fun fd => (each fd).1, funext fun fd => (each fd).2⟩
  · rintro ⟨rfl, rfl⟩
    rfl

/-- A set shows what a bit asks for exactly when it has those descriptors. -/
theorem isSet_eq_iff (loop : SelectLoop) (bit : Events) (set : List Int) :
    loop.system.poller.isSet loop.system.channels bit = (fun fd => decide (fd ∈ set)) ↔
      ∀ fd, fd ∈ loop.withEvent bit ↔ fd ∈ set := by
  rw [funext_iff]
  refine forall_congr' ?_
  intro fd
  rw [loop.mem_withEvent, Bool.eq_iff_iff, decide_eq_true_eq]

/-- `poll` fills its sets with what is to be watched exactly when there is room. -/
theorem sets_interest_iff (loop : SelectLoop) :
    (∃ sets, loop.sets platform = some sets ∧
      loop.system.poller.interest loop.system.channels = sets.interest) ↔
      loop.Fits platform := by
  constructor
  · rintro ⟨sets, filled, same⟩
    have room := SelectPoller.fillSets_hasRoom hasRoom_nil hasRoom_nil filled
    rcases watching_inj.mp same with ⟨reads, writes⟩
    have inReads := (loop.isSet_eq_iff XPOLLIN sets.readfds).mp reads
    have inWrites := (loop.isSet_eq_iff XPOLLOUT sets.writefds).mp writes
    constructor
    · exact room.1.of_subset (loop.withEvent_nodup _) fun fd => (inReads fd).mp
    · exact room.2.of_subset (loop.withEvent_nodup _) fun fd => (inWrites fd).mp
  · rintro ⟨reads, writes⟩
    have none : ∀ entry ∈ loop.entries.entries, entry.1 ∉ ([] : List Int) ∧
        entry.1 ∉ ([] : List Int) :=
      fun _ _ => ⟨List.not_mem_nil, List.not_mem_nil⟩
    refine ⟨_, SelectPoller.fillSets_eq loop.entries.sorted none reads writes, ?_⟩
    apply watching_inj.mpr
    constructor
    · exact (loop.isSet_eq_iff XPOLLIN _).mpr fun _ => Iff.rfl
    · exact (loop.isSet_eq_iff XPOLLOUT _).mpr fun _ => Iff.rfl

end SelectLoop

def epollRun (fds : Nat → Int) (calls : List (Nat × ChannelCall)) :
    PollerSystem EPollPoller × List (Option Bool) :=
  Machine.runOutputs PollerSystem.stepEPoll (PollerSystem.create EPollPoller.empty fds) calls

def selectRun (fds : Nat → Int) (calls : List (Nat × ChannelCall)) :
    SelectLoop × List (Option Bool) :=
  Machine.runOutputs SelectLoop.stepCall (SelectLoop.create fds) calls

/-- The pollers answer alike and leave the channels the same indices, and after each call
`poll` would fill its sets with what the kernel watches. -/
structure PollersAgree (platform : Platform) (fds : Nat → Int)
    (calls : List (Nat × ChannelCall)) : Prop where
  answers : (epollRun fds calls).2 = (selectRun fds calls).2
  indices : ∀ address, ((epollRun fds calls).1.channels address).index =
    ((selectRun fds calls).1.system.channels address).index
  interest : ∀ front, front <+: calls → ∃ sets,
    (selectRun fds front).1.sets platform = some sets ∧
      (epollRun fds front).1.poller.interest = sets.interest

theorem runs_related (fds : Nat → Int) (calls : List (Nat × ChannelCall)) :
    (epollRun fds calls).2 = (selectRun fds calls).2 ∧
      PollerSystem.Related (epollRun fds calls).1 (selectRun fds calls).1.system := by
  have each (left : PollerSystem EPollPoller) (right : SelectLoop) (label : Nat × ChannelCall)
      (related : PollerSystem.Related left right.system) :
      (left.stepEPoll label).2 = (right.stepCall label).2 ∧
        PollerSystem.Related (left.stepEPoll label).1 (right.stepCall label).1.system :=
    related.step label
  exact Machine.runOutputs_related each (PollerSystem.create_related fds) calls

/-- After any calls, the sets show what the kernel watches exactly when there is room. -/
theorem interest_iff_fits (platform : Platform) (fds : Nat → Int)
    (calls : List (Nat × ChannelCall)) :
    (∃ sets, (selectRun fds calls).1.sets platform = some sets ∧
      (epollRun fds calls).1.poller.interest = sets.interest) ↔
      (selectRun fds calls).1.Fits platform := by
  rw [(runs_related fds calls).2.interest]
  exact (selectRun fds calls).1.sets_interest_iff

/-- Whatever the descriptors and the calls, the two pollers agree exactly as long as the sets
have room. -/
theorem pollers_agree_iff_fits (platform : Platform) (fds : Nat → Int)
    (calls : List (Nat × ChannelCall)) :
    PollersAgree platform fds calls ↔
      ∀ front, front <+: calls → (selectRun fds front).1.Fits platform := by
  constructor
  · intro agree front begins
    exact (interest_iff_fits platform fds front).mp (agree.interest front begins)
  · intro fits
    have related := runs_related fds calls
    constructor
    · exact related.1
    · intro address
      rw [related.2.channels]
    · intro front begins
      exact (interest_iff_fits platform fds front).mpr (fits front begins)

/-- Of 65 channels that are to be read, `select` watches 64. -/
theorem last_socket_left_out :
    ¬ ∀ (platform : Platform) (fds : Nat → Int) (calls : List (Nat × ChannelCall)),
      PollersAgree platform fds calls := by
  intro law
  let calls := (List.range 65).map fun address => (address, ChannelCall.change .enableReading)
  have agree := law .windows (fun address => address) calls
  have fits := (interest_iff_fits .windows _ calls).mp (agree.interest calls List.prefix_rfl)
  have room : ((selectRun (fun address => address) calls).1.withEvent XPOLLIN).length ≤ 64 :=
    fits.1
  exact absurd room (by decide +kernel)

end MyBookSources.Net
