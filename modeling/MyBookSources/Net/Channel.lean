import MyBookSources.Foundation.Bytes
import Mathlib.Data.BitVec

/-! # Channels

`net::Channel`: the events a file descriptor is watched for, and the place the
poller keeps for it. Changing the events calls into the poller, so the
operations that also update the poller stand with `EPollPoller`.
-/

namespace MyBookSources.Net

/-- An event mask of `poll` and `epoll`. -/
abbrev Events := BitVec 32

def XPOLLIN : Events := 1
def XPOLLPRI : Events := 2
def XPOLLOUT : Events := 4
def XPOLLERR : Events := 8
def XPOLLHUP : Events := 16
def XPOLLNVAL : Events := 32
def XPOLLRDHUP : Events := 8192

/-- The test `mask & bits` of an `if`. -/
def Events.has (mask bits : Events) : Bool := mask &&& bits != 0

namespace Events

theorem has_or (mask added bits : Events) :
    Events.has (mask ||| added) bits = (mask.has bits || added.has bits) := by
  have zero : (mask ||| added) &&& bits = 0 ↔ mask &&& bits = 0 ∧ added &&& bits = 0 := by
    rw [BitVec.and_or_distrib_right]
    exact BitVec.or_eq_zero_iff
  rw [Bool.eq_iff_iff]
  simp only [has, bne_iff_ne, ne_eq, Bool.or_eq_true, zero]
  tauto

theorem has_clear (mask cleared bits : Events) :
    Events.has (mask &&& ~~~cleared) bits = mask.has (bits &&& ~~~cleared) := by
  rw [has, has, BitVec.and_assoc, BitVec.and_comm (~~~cleared) bits]

end Events

/-- `address` stands for the pointer by which the poller knows the channel. -/
structure Channel where
  address : Nat
  fd : Int
  events : Events
  revents : Events
  index : Int
  deriving DecidableEq

namespace Channel

def kNoneEvent : Events := 0
def kReadEvent : Events := XPOLLIN ||| XPOLLPRI
def kWriteEvent : Events := XPOLLOUT

def create (address : Nat) (fd : Int) : Channel where
  address := address
  fd := fd
  events := 0
  revents := 0
  index := -1

def isNoneEvent (channel : Channel) : Bool := channel.events == kNoneEvent

def isWriting (channel : Channel) : Bool := channel.events.has kWriteEvent

def isReading (channel : Channel) : Bool := channel.events.has kReadEvent

def withReading (channel : Channel) : Channel :=
  { channel with events := channel.events ||| kReadEvent }

def withoutReading (channel : Channel) : Channel :=
  { channel with events := channel.events &&& ~~~kReadEvent }

def withWriting (channel : Channel) : Channel :=
  { channel with events := channel.events ||| kWriteEvent }

def withoutWriting (channel : Channel) : Channel :=
  { channel with events := channel.events &&& ~~~kWriteEvent }

def withoutAll (channel : Channel) : Channel := { channel with events := kNoneEvent }

section Interest

variable (channel : Channel)

@[simp] theorem isWriting_withWriting : channel.withWriting.isWriting = true := by
  rw [isWriting, withWriting, Events.has_or]
  simp [Events.has, kWriteEvent, XPOLLOUT]

@[simp] theorem isWriting_withoutWriting : channel.withoutWriting.isWriting = false := by
  rw [isWriting, withoutWriting, Events.has_clear]
  simp [Events.has]

@[simp] theorem isReading_withReading : channel.withReading.isReading = true := by
  rw [isReading, withReading, Events.has_or]
  simp [Events.has, kReadEvent, XPOLLIN, XPOLLPRI]

@[simp] theorem isReading_withWriting :
    channel.withWriting.isReading = channel.isReading := by
  rw [isReading, withWriting, Events.has_or]
  simp [isReading, Events.has, kReadEvent, kWriteEvent, XPOLLIN, XPOLLPRI, XPOLLOUT]

@[simp] theorem isWriting_withReading :
    channel.withReading.isWriting = channel.isWriting := by
  rw [isWriting, withReading, Events.has_or]
  simp [isWriting, Events.has, kReadEvent, kWriteEvent, XPOLLIN, XPOLLPRI, XPOLLOUT]

@[simp] theorem isReading_withoutWriting :
    channel.withoutWriting.isReading = channel.isReading := by
  rw [isReading, withoutWriting, Events.has_clear]
  rfl

theorem isNoneEvent_of_isReading (reading : channel.isReading = true) :
    channel.isNoneEvent = false := by
  by_contra none
  have empty : channel.events = 0 := by simpa [isNoneEvent, kNoneEvent] using none
  simp [isReading, Events.has, empty] at reading

@[simp] theorem isWriting_withoutAll : channel.withoutAll.isWriting = false := by
  simp [isWriting, withoutAll, Events.has, kNoneEvent]

@[simp] theorem isNoneEvent_withoutAll : channel.withoutAll.isNoneEvent = true := by
  simp [isNoneEvent, withoutAll]

end Interest

/-! ## Changes of the events -/

/-- The member functions that change the events before they call the poller. -/
inductive EventChange
  | enableReading
  | disableReading
  | enableWriting
  | disableWriting
  | disableAll
  deriving DecidableEq

def change (channel : Channel) : EventChange → Channel
  | .enableReading => channel.withReading
  | .disableReading => channel.withoutReading
  | .enableWriting => channel.withWriting
  | .disableWriting => channel.withoutWriting
  | .disableAll => channel.withoutAll

def Usual (channel : Channel) : Prop :=
  channel.events = kNoneEvent ∨ channel.events = kReadEvent ∨ channel.events = kWriteEvent ∨
    channel.events = kReadEvent ||| kWriteEvent

section Usual

variable {channel : Channel}

theorem Usual.change (usual : channel.Usual) (change : EventChange) :
    (channel.change change).Usual := by
  rcases usual with events | events | events | events <;> cases change <;>
    simp [Channel.change, withReading, withoutReading, withWriting, withoutWriting,
      withoutAll, Usual, events, kNoneEvent, kReadEvent, kWriteEvent, XPOLLIN, XPOLLPRI,
      XPOLLOUT]

theorem Usual.has_XPOLLIN (usual : channel.Usual) :
    channel.events.has XPOLLIN = channel.isReading := by
  rcases usual with events | events | events | events <;> rw [isReading, events] <;> rfl

theorem Usual.isNoneEvent_iff (usual : channel.Usual) :
    channel.isNoneEvent = true ↔ channel.isReading = false ∧ channel.isWriting = false := by
  rcases usual with events | events | events | events <;>
    rw [isNoneEvent, isReading, isWriting, events] <;> decide

end Usual

@[simp] theorem change_address (channel : Channel) (change : EventChange) :
    (channel.change change).address = channel.address := by
  cases change <;> rfl

@[simp] theorem change_fd (channel : Channel) (change : EventChange) :
    (channel.change change).fd = channel.fd := by
  cases change <;> rfl

@[simp] theorem change_index (channel : Channel) (change : EventChange) :
    (channel.change change).index = channel.index := by
  cases change <;> rfl

theorem change_change (channel : Channel) (change : EventChange) :
    (channel.change change).change change = channel.change change := by
  cases change with
  | enableReading => simp [Channel.change, withReading, BitVec.or_assoc]
  | disableReading => simp [Channel.change, withoutReading, BitVec.and_assoc]
  | enableWriting => simp [Channel.change, withWriting, BitVec.or_assoc]
  | disableWriting => simp [Channel.change, withoutWriting, BitVec.and_assoc]
  | disableAll => rfl

end Channel

/-- A poller and all channels that may use it, by their addresses. -/
structure PollerSystem (Poller : Type) where
  poller : Poller
  channels : Nat → Channel

def PollerSystem.create (poller : Poller) (fds : Nat → Int) : PollerSystem Poller where
  poller := poller
  channels address := Channel.create address (fds address)

end MyBookSources.Net
