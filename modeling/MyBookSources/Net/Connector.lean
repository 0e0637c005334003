import MyBookSources.Foundation.Execution
import Mathlib.Data.List.Count

/-! # Connection attempts

`net::Connector`, where it is not compiled for Windows. Its functors wait in the loop's queue
while `start`, `stop` and `restart` are called and the poller reports events. Sockets are
numbered in the order in which `connect` creates them.
-/

namespace MyBookSources.Net

/-- `savedErrno` after the call of `connect`. -/
inductive ConnectErrno
  | none
  | EINPROGRESS
  | EINTR
  | EISCONN
  | EAGAIN
  | EADDRINUSE
  | EADDRNOTAVAIL
  | ECONNREFUSED
  | ENETUNREACH
  | EACCES
  | EPERM
  | EAFNOSUPPORT
  | EALREADY
  | EBADF
  | EFAULT
  | ENOTSOCK
  | other (code : Nat)
  deriving DecidableEq

/-- What an attempt meets: the result of `connect`, and whether the poller takes the channel
when `enableWriting` is called, which `connecting` does not ask. -/
structure Attempt where
  savedErrno : ConnectErrno
  registers : Bool
  deriving DecidableEq

namespace Attempt

/-- The results of `connect` with which the attempt goes on. -/
def begins (attempt : Attempt) : Bool :=
  match attempt.savedErrno with
  | .none | .EINPROGRESS | .EINTR | .EISCONN => true
  | _ => false

def Enters (attempt : Attempt) : Prop := attempt.begins = true → attempt.registers = true

instance (attempt : Attempt) : Decidable attempt.Enters := inferInstanceAs (Decidable (_ → _))

end Attempt

namespace Connector

inductive States
  | kDisconnected
  | kConnecting
  | kConnected
  deriving DecidableEq

inductive Functor
  | startInLoop
  | stopInLoop
  | restart
  | resetChannel
  deriving DecidableEq

end Connector

/-- `shouldConnect` is `connect_`, and `channel` the socket that `channel_` wraps. `registered`
are the sockets whose channel the poller has, `pending` the functors in the loop's queue.
`closed` and `passed` list the sockets closed and those given to `newConnectionCallback_`. -/
structure Connector where
  shouldConnect : Bool
  state : Connector.States
  channel : Option Nat
  registered : List Nat
  pending : List Connector.Functor
  created : Nat
  closed : List Nat
  passed : List Nat
  deriving DecidableEq

namespace Connector

def create : Connector where
  shouldConnect := false
  state := .kDisconnected
  channel := none
  registered := []
  pending := []
  created := 0
  closed := []
  passed := []

def setState (connector : Connector) (s : States) : Connector := { connector with state := s }

def queueInLoop (connector : Connector) (functor : Functor) : Connector :=
  { connector with pending := connector.pending ++ [functor] }

/-- `sockets::close`. -/
def close (connector : Connector) (sockfd : Nat) : Connector :=
  { connector with closed := connector.closed ++ [sockfd] }

def newConnectionCallback (connector : Connector) (sockfd : Nat) : Connector :=
  { connector with passed := connector.passed ++ [sockfd] }

/-- The retry itself is commented out: with `connect_` set there is only a line in the log. -/
def retry (connector : Connector) (sockfd : Nat) : Connector :=
  (connector.close sockfd).setState .kDisconnected

def connecting (connector : Connector) (sockfd : Nat) (registers : Bool) : Connector :=
  { connector.setState .kConnecting with
    channel := some sockfd
    registered :=
      if registers then connector.registered ++ [sockfd] else connector.registered }

def connect (connector : Connector) (attempt : Attempt) : Connector :=
  let sockfd := connector.created
  let opened := { connector with created := connector.created + 1 }
  match attempt.savedErrno with
  | .none | .EINPROGRESS | .EINTR | .EISCONN => opened.connecting sockfd attempt.registers
  | .EAGAIN | .EADDRINUSE | .EADDRNOTAVAIL | .ECONNREFUSED | .ENETUNREACH =>
      opened.retry sockfd
  | .EACCES | .EPERM | .EAFNOSUPPORT | .EALREADY | .EBADF | .EFAULT | .ENOTSOCK =>
      opened.close sockfd
  | .other _ => opened.close sockfd

def startInLoop (connector : Connector) (attempt : Attempt) : Connector :=
  if connector.state ≠ .kDisconnected then connector
  else if connector.shouldConnect then connector.connect attempt
  else connector

/-- `start` on the loop thread, where `runInLoop` calls the functor at once. -/
def start (connector : Connector) (attempt : Attempt) : Connector :=
  { connector with shouldConnect := true }.startInLoop attempt

def restart (connector : Connector) (attempt : Attempt) : Connector :=
  { connector.setState .kDisconnected with shouldConnect := true }.startInLoop attempt

/-- The socket of the channel that is taken from the poller. It is none where `channel_` is
null and the program crashes. -/
def removeAndResetChannel (connector : Connector) : Option (Nat × Connector) :=
  connector.channel.map fun sockfd =>
    (sockfd, { connector with
      registered := connector.registered.filter (· ≠ sockfd) }.queueInLoop .resetChannel)

def resetChannel (connector : Connector) : Connector := { connector with channel := none }

def stopInLoop (connector : Connector) : Option Connector :=
  if connector.state = .kConnecting then
    (connector.setState .kDisconnected).removeAndResetChannel.map fun (sockfd, removed) =>
      removed.retry sockfd
  else some connector

/-- `err` is the socket's error, `isSelfConnect` what is asked about its addresses. -/
def handleWrite (connector : Connector) (err : Int) (isSelfConnect : Bool) :
    Option Connector :=
  if connector.state = .kConnecting then
    connector.removeAndResetChannel.map fun (sockfd, removed) =>
      if err ≠ 0 then removed.retry sockfd
      else if isSelfConnect then removed.retry sockfd
      else
        let connected := removed.setState .kConnected
        if connected.shouldConnect then connected.newConnectionCallback sockfd
        else connected.close sockfd
  else some connector

def handleError (connector : Connector) : Option Connector :=
  if connector.state = .kConnecting then
    connector.removeAndResetChannel.map fun (sockfd, removed) => removed.retry sockfd
  else some connector

/-! ## Steps -/

inductive Request
  | startInLoop
  | stopInLoop
  | restart
  deriving DecidableEq

def Request.functor : Request → Functor
  | .startInLoop => .startInLoop
  | .stopInLoop => .stopInLoop
  | .restart => .restart

/-- `setConnect` and `queueInLoop` are the two halves of `stop`, and of `start` on another
thread. `doFunctor` executes the functor at a place in the queue. -/
inductive Label
  | start (attempt : Attempt)
  | restart (attempt : Attempt)
  | setConnect (value : Bool)
  | queueInLoop (request : Request)
  | doFunctor (position : Nat) (attempt : Attempt)
  | handleWrite (err : Int) (isSelfConnect : Bool)
  | handleError
  deriving DecidableEq

def perform (connector : Connector) (attempt : Attempt) : Functor → Option Connector
  | .startInLoop => some (connector.startInLoop attempt)
  | .stopInLoop => connector.stopInLoop
  | .restart => some (connector.restart attempt)
  | .resetChannel => some connector.resetChannel

/-- It is none where the program crashes. -/
def step (connector : Connector) : Label → Option Connector
  | .start attempt => some (connector.start attempt)
  | .restart attempt => some (connector.restart attempt)
  | .setConnect value => some { connector with shouldConnect := value }
  | .queueInLoop request => some (connector.queueInLoop request.functor)
  | .doFunctor position attempt =>
      match connector.pending[position]? with
      | none => some connector
      | some functor =>
          { connector with pending := connector.pending.eraseIdx position }.perform attempt
            functor
  | .handleWrite err isSelfConnect => connector.handleWrite err isSelfConnect
  | .handleError => connector.handleError

/-! ## What is right -/

def exits (connector : Connector) (sockfd : Nat) : Nat :=
  connector.closed.count sockfd + connector.passed.count sockfd

def InProgress (connector : Connector) (sockfd : Nat) : Prop :=
  connector.state = .kConnecting ∧ connector.channel = some sockfd

/-- An attempt under way has a channel that the poller has, with a socket that is open; every
other socket has been closed or passed, and only once. -/
structure Right (connector : Connector) : Prop where
  connecting : connector.state = .kConnecting → ∃ sockfd, connector.channel = some sockfd ∧
    sockfd ∈ connector.registered ∧ sockfd ∉ connector.closed
  once : ∀ sockfd < connector.created,
    connector.exits sockfd = 1 ∨
      connector.exits sockfd = 0 ∧ connector.InProgress sockfd

/-- A functor leaves the attempt under way alone, unless it ends it, and a new one is entered
into the poller. -/
def PermitsFunctor (connector : Connector) (attempt : Attempt) : Functor → Prop
  | .startInLoop =>
      connector.state = .kDisconnected → connector.shouldConnect = true → attempt.Enters
  | .stopInLoop => True
  | .restart => connector.state ≠ .kConnecting ∧ attempt.Enters
  | .resetChannel => connector.state ≠ .kConnecting

def Permits (connector : Connector) : Label → Prop
  | .start attempt => connector.state = .kDisconnected → attempt.Enters
  | .restart attempt => connector.PermitsFunctor attempt .restart
  | .doFunctor position attempt => ∀ functor, connector.pending[position]? = some functor →
      connector.PermitsFunctor attempt functor
  | _ => True

/-! ## The invariant -/

structure Sound (connector : Connector) : Prop where
  registered : ∀ sockfd ∈ connector.registered, sockfd < connector.created
  fresh : ∀ sockfd, connector.created ≤ sockfd → connector.exits sockfd = 0
  underWay : connector.state = .kConnecting → ∃ sockfd, connector.channel = some sockfd ∧
    sockfd ∈ connector.registered ∧ connector.exits sockfd = 0
  left : ∀ sockfd < connector.created, ¬ connector.InProgress sockfd →
    connector.exits sockfd = 1

theorem create_sound : create.Sound where
  registered _ member := absurd member List.not_mem_nil
  fresh _ _ := rfl
  underWay state := by cases state
  left _ below := absurd below (Nat.not_lt_zero _)

variable {connector : Connector}

theorem Sound.right (sound : connector.Sound) : connector.Right := by
  constructor
  · intro state
    rcases sound.underWay state with ⟨sockfd, channel, registered, inside⟩
    refine ⟨sockfd, channel, registered, ?_⟩
    rw [← List.count_eq_zero]
    unfold exits at inside
    omega
  · intro sockfd below
    by_cases progress : connector.InProgress sockfd
    · rcases sound.underWay progress.1 with ⟨other, channel, _, inside⟩
      rw [progress.2] at channel
      cases channel
      exact .inr ⟨inside, progress⟩
    · exact .inl (sound.left sockfd below progress)

theorem Sound.setPending (sound : connector.Sound) (shouldConnect : Bool)
    (pending : List Functor) :
    Sound { connector with shouldConnect := shouldConnect, pending := pending } :=
  ⟨sound.registered, sound.fresh, sound.underWay, sound.left⟩

theorem exits_close (sockfd other : Nat) :
    (connector.close sockfd).exits other =
      connector.exits other + if other = sockfd then 1 else 0 := by
  simp only [exits, close, List.count_append, List.count_singleton, beq_iff_eq,
    eq_comm (a := other)]
  omega

theorem exits_newConnectionCallback (sockfd other : Nat) :
    (connector.newConnectionCallback sockfd).exits other =
      connector.exits other + if other = sockfd then 1 else 0 := by
  simp only [exits, newConnectionCallback, List.count_append, List.count_singleton,
    beq_iff_eq, eq_comm (a := other)]
  omega

theorem Sound.refuse (sound : connector.Sound) (idle : connector.state ≠ .kConnecting)
    {next : Connector} (state : next.state ≠ .kConnecting)
    (created : next.created = connector.created + 1)
    (registered : next.registered = connector.registered)
    (exits : ∀ other, next.exits other =
      connector.exits other + if other = connector.created then 1 else 0) : next.Sound where
  registered sockfd member := by
    rw [registered] at member
    have below := sound.registered sockfd member
    omega
  fresh sockfd above := by
    rw [exits, sound.fresh sockfd (by omega), if_neg (by omega)]
  underWay connecting := absurd connecting state
  left sockfd below _ := by
    rw [exits]
    by_cases new : sockfd = connector.created
    · rw [if_pos new, sound.fresh sockfd (by omega)]
    · rw [if_neg new]
      exact sound.left sockfd (by omega) fun progress => idle progress.1

theorem Sound.leave (sound : connector.Sound) {sockfd : Nat}
    (progress : connector.InProgress sockfd) {next : Connector}
    (state : next.state ≠ .kConnecting) (created : next.created = connector.created)
    (registered : ∀ other ∈ next.registered, other ∈ connector.registered)
    (exits : ∀ other, next.exits other =
      connector.exits other + if other = sockfd then 1 else 0) : next.Sound := by
  rcases sound.underWay progress.1 with ⟨same, channel, entered, inside⟩
  rw [progress.2] at channel
  cases channel
  have known := sound.registered sockfd entered
  constructor
  · intro other member
    rw [created]
    exact sound.registered other (registered other member)
  · intro other above
    rw [exits, sound.fresh other (by omega), if_neg (by omega)]
  · intro connecting
    exact absurd connecting state
  · intro other below _
    rw [exits]
    by_cases this : other = sockfd
    · rw [if_pos this, this, inside]
    · rw [if_neg this]
      refine sound.left other (by omega) ?_
      intro otherProgress
      have both := progress.2.symm.trans otherProgress.2
      cases both
      exact this rfl

/-! ## What the functions do -/

theorem connect_cases (connector : Connector) (attempt : Attempt) :
    let opened := { connector with created := connector.created + 1 }
    (attempt.begins = true ∧
        connector.connect attempt = opened.connecting connector.created attempt.registers) ∨
      attempt.begins = false ∧
        (connector.connect attempt = opened.retry connector.created ∨
          connector.connect attempt = opened.close connector.created) := by
  rcases attempt with ⟨savedErrno, registers⟩
  cases savedErrno <;> simp [Attempt.begins, connect]

theorem Sound.connect (sound : connector.Sound) (idle : connector.state ≠ .kConnecting)
    {attempt : Attempt} (enters : attempt.Enters) : (connector.connect attempt).Sound := by
  rcases connector.connect_cases attempt with ⟨begins, went⟩ | ⟨_, refused⟩
  · rw [went, enters begins]
    constructor
    · intro sockfd member
      rcases List.mem_append.mp member with old | new
      · exact Nat.lt_succ_of_lt (sound.registered sockfd old)
      · rw [List.mem_singleton.mp new]
        exact Nat.lt_succ_self _
    · intro sockfd above
      exact sound.fresh sockfd (Nat.le_of_succ_le above)
    · intro _
      exact ⟨connector.created, rfl, List.mem_append_right _ List.mem_cons_self,
        sound.fresh _ (Nat.le_refl _)⟩
    · intro sockfd below other
      have old : sockfd ≠ connector.created := by
        rintro rfl
        exact other ⟨rfl, rfl⟩
      have below : sockfd < connector.created + 1 := below
      refine sound.left sockfd (by omega) ?_
      intro progress
      exact idle progress.1
  · rcases refused with retried | closed
    · rw [retried]
      exact sound.refuse idle nofun rfl rfl (exits_close _)
    · rw [closed]
      exact sound.refuse idle idle rfl rfl (exits_close _)

theorem Sound.startInLoop (sound : connector.Sound) {attempt : Attempt}
    (enters : connector.state = .kDisconnected → connector.shouldConnect = true →
      attempt.Enters) : (connector.startInLoop attempt).Sound := by
  rw [Connector.startInLoop]
  split
  · exact sound
  · next state =>
    have state := Decidable.not_not.mp state
    split
    · next wanted =>
      have idle : connector.state ≠ .kConnecting := by
        rw [state]
        nofun
      exact sound.connect idle (enters state wanted)
    · exact sound

theorem Sound.disconnect (sound : connector.Sound) (idle : connector.state ≠ .kConnecting) :
    Sound { connector.setState .kDisconnected with shouldConnect := true } := by
  refine ⟨sound.registered, sound.fresh, nofun, ?_⟩
  intro sockfd below _
  exact sound.left sockfd below fun progress => idle progress.1

theorem Sound.restart (sound : connector.Sound) {attempt : Attempt}
    (idle : connector.state ≠ .kConnecting) (enters : attempt.Enters) :
    (connector.restart attempt).Sound :=
  (sound.disconnect idle).startInLoop fun _ _ => enters

theorem Sound.resetChannel (sound : connector.Sound) (idle : connector.state ≠ .kConnecting) :
    connector.resetChannel.Sound := by
  refine ⟨sound.registered, sound.fresh, fun state => absurd state idle, ?_⟩
  intro sockfd below _
  exact sound.left sockfd below fun progress => idle progress.1

theorem Sound.progress (sound : connector.Sound) (connecting : connector.state = .kConnecting) :
    ∃ sockfd, connector.InProgress sockfd := by
  rcases sound.underWay connecting with ⟨sockfd, channel, _⟩
  exact ⟨sockfd, connecting, channel⟩

theorem Sound.stopInLoop (sound : connector.Sound) :
    ∃ next, connector.stopInLoop = some next ∧ next.Sound := by
  rw [Connector.stopInLoop]
  split
  · next connecting =>
    rcases sound.progress connecting with ⟨sockfd, progress⟩
    have channel : (connector.setState .kDisconnected).channel = some sockfd := progress.2
    rw [removeAndResetChannel, channel]
    refine ⟨_, rfl, sound.leave progress nofun rfl ?_ (exits_close _)⟩
    intro other member
    exact (List.mem_filter.mp member).1
  · exact ⟨connector, rfl, sound⟩

theorem Sound.handleError (sound : connector.Sound) :
    ∃ next, connector.handleError = some next ∧ next.Sound := by
  rw [Connector.handleError]
  split
  · next connecting =>
    rcases sound.progress connecting with ⟨sockfd, progress⟩
    rw [removeAndResetChannel, progress.2]
    refine ⟨_, rfl, sound.leave progress nofun rfl ?_ (exits_close _)⟩
    intro other member
    exact (List.mem_filter.mp member).1
  · exact ⟨connector, rfl, sound⟩

theorem Sound.handleWrite (sound : connector.Sound) (err : Int) (isSelfConnect : Bool) :
    ∃ next, connector.handleWrite err isSelfConnect = some next ∧ next.Sound := by
  rw [Connector.handleWrite]
  split
  · next connecting =>
    rcases sound.progress connecting with ⟨sockfd, progress⟩
    rw [removeAndResetChannel, progress.2]
    refine ⟨_, rfl, ?_⟩
    have kept : ∀ other ∈ connector.registered.filter (· ≠ sockfd),
        other ∈ connector.registered := fun other member => (List.mem_filter.mp member).1
    dsimp only
    split
    · exact sound.leave progress nofun rfl kept (exits_close _)
    · split
      · exact sound.leave progress nofun rfl kept (exits_close _)
      · split
        · exact sound.leave progress nofun rfl kept (exits_newConnectionCallback _)
        · exact sound.leave progress nofun rfl kept (exits_close _)
  · exact ⟨connector, rfl, sound⟩

theorem Sound.perform (sound : connector.Sound) {attempt : Attempt} {functor : Functor}
    (permits : connector.PermitsFunctor attempt functor) :
    ∃ next, connector.perform attempt functor = some next ∧ next.Sound := by
  cases functor with
  | startInLoop => exact ⟨_, rfl, sound.startInLoop permits⟩
  | stopInLoop => exact sound.stopInLoop
  | restart => exact ⟨_, rfl, sound.restart permits.1 permits.2⟩
  | resetChannel => exact ⟨_, rfl, sound.resetChannel permits⟩

/-- A permitted step does not crash and keeps the invariant. -/
theorem Sound.step (sound : connector.Sound) {label : Label}
    (permits : connector.Permits label) :
    ∃ next, connector.step label = some next ∧ next.Sound := by
  cases label with
  | start attempt =>
      have wanted := sound.setPending true connector.pending
      exact ⟨_, rfl, wanted.startInLoop fun state _ => permits state⟩
  | restart attempt => exact ⟨_, rfl, sound.restart permits.1 permits.2⟩
  | setConnect value => exact ⟨_, rfl, sound.setPending value connector.pending⟩
  | queueInLoop request => exact ⟨_, rfl, sound.setPending connector.shouldConnect _⟩
  | doFunctor position attempt =>
      rw [Connector.step]
      split
      · exact ⟨connector, rfl, sound⟩
      · next functor queued =>
        have taken := sound.setPending connector.shouldConnect
          (connector.pending.eraseIdx position)
        have permitted := permits functor queued
        refine taken.perform ?_
        cases functor <;> exact permitted
  | handleWrite err isSelfConnect => exact sound.handleWrite err isSelfConnect
  | handleError => exact sound.handleError

/-! ## What goes wrong otherwise -/

theorem enters_of_right (sound : connector.Sound) {attempt : Attempt}
    (right : (connector.connect attempt).Right) : attempt.Enters := by
  intro begins
  rcases connector.connect_cases attempt with ⟨_, went⟩ | ⟨refused, _⟩
  · rw [went] at right
    rcases right.connecting rfl with ⟨sockfd, channel, registered, _⟩
    cases channel
    by_contra missing
    rw [Bool.not_eq_true] at missing
    rw [missing] at registered
    have below := sound.registered _ registered
    exact absurd below (Nat.lt_irrefl _)
  · rw [refused] at begins
    cases begins

theorem exits_of_connect_right (idle : connector.state ≠ .kConnecting) {attempt : Attempt}
    (right : (connector.connect attempt).Right) {sockfd : Nat}
    (below : sockfd < connector.created) : connector.exits sockfd = 1 := by
  rcases connector.connect_cases attempt with ⟨_, went⟩ | ⟨_, refused⟩
  · rw [went] at right
    rcases right.once sockfd (Nat.lt_succ_of_lt below) with exited | ⟨_, progress⟩
    · exact exited
    · cases progress.2
      exact absurd below (Nat.lt_irrefl _)
  · have stays : ∀ next : Connector, next.Right → next.state ≠ .kConnecting →
        next.created = connector.created + 1 →
        next.exits sockfd = connector.exits sockfd + (if sockfd = connector.created then 1 else 0) →
        connector.exits sockfd = 1 := by
      intro next right state created exits
      rw [if_neg (by omega)] at exits
      rcases right.once sockfd (by omega) with exited | ⟨_, progress⟩
      · omega
      · exact absurd progress.1 state
    rcases refused with retried | closed
    · rw [retried] at right
      exact stays _ right nofun rfl (exits_close _ _)
    · rw [closed] at right
      exact stays _ right idle rfl (exits_close _ _)

theorem restart_eq (attempt : Attempt) : connector.restart attempt =
    Connector.connect { connector.setState .kDisconnected with shouldConnect := true } attempt :=
  rfl

theorem idle_of_restart_right (sound : connector.Sound) {attempt : Attempt}
    (right : (connector.restart attempt).Right) : connector.state ≠ .kConnecting := by
  intro connecting
  rcases sound.underWay connecting with ⟨sockfd, _, registered, inside⟩
  have known := sound.registered sockfd registered
  rw [restart_eq] at right
  have disconnected : States.kDisconnected ≠ States.kConnecting := nofun
  have same : connector.exits sockfd = 1 := exits_of_connect_right disconnected right known
  omega

theorem idle_of_resetChannel_right (right : connector.resetChannel.Right) :
    connector.state ≠ .kConnecting := by
  intro connecting
  rcases right.connecting connecting with ⟨sockfd, channel, _⟩
  cases channel

theorem permitsFunctor_of_right (sound : connector.Sound) {attempt : Attempt}
    {functor : Functor} {next : Connector}
    (taken : connector.perform attempt functor = some next) (right : next.Right) :
    connector.PermitsFunctor attempt functor := by
  cases functor with
  | startInLoop =>
      cases taken
      intro state wanted
      rw [Connector.startInLoop, if_neg (not_not.mpr state), if_pos wanted] at right
      exact enters_of_right sound right
  | stopInLoop => trivial
  | restart =>
      cases taken
      have idle := idle_of_restart_right sound right
      rw [restart_eq] at right
      exact ⟨idle, enters_of_right (sound.disconnect idle) right⟩
  | resetChannel =>
      cases taken
      exact idle_of_resetChannel_right right

theorem permits_of_right (sound : connector.Sound) {label : Label} {next : Connector}
    (taken : connector.step label = some next) (right : next.Right) :
    connector.Permits label := by
  cases label with
  | start attempt =>
      cases taken
      intro state
      rw [Connector.start, Connector.startInLoop, if_neg (not_not.mpr state), if_pos rfl] at right
      exact enters_of_right (sound.setPending true connector.pending) right
  | restart attempt =>
      have performed : connector.perform attempt .restart = some next := taken
      exact permitsFunctor_of_right sound performed right
  | setConnect value => trivial
  | queueInLoop request => trivial
  | doFunctor position attempt =>
      intro functor queued
      rw [Connector.step, queued] at taken
      have rest := sound.setPending connector.shouldConnect (connector.pending.eraseIdx position)
      have permitted := permitsFunctor_of_right rest taken right
      cases functor <;> exact permitted
  | handleWrite err isSelfConnect => trivial
  | handleError => trivial

/-- However the calls, the functors and the events are ordered, every state of the run is right
and nothing crashes exactly when no `restart` and no `resetChannel` comes while an attempt is
under way and each attempt that goes on is entered into the poller. -/
theorem run_right_iff (labels : List Label) :
    Machine.RunHolds step Right create labels ↔
      Machine.RunPermits step Permits create labels := by
  refine Machine.runHolds_iff_runPermits ?_ ?_ ?_ create_sound labels
  · intro connector sound
    exact sound.right
  · intro connector label sound permits
    exact sound.step permits
  · intro connector label next sound taken right
    exact permits_of_right sound taken right

/-- With `start`, `stop` and `start` one behind the other, the channel that `stopInLoop` leaves
to be reset is the one of the second attempt by then. -/
theorem second_attempt_loses_channel :
    ¬ ∀ labels : List Label, Machine.RunHolds step Right create labels := by
  intro law
  let attempt : Attempt := ⟨.EINPROGRESS, true⟩
  have along := law [.start attempt, .setConnect false, .queueInLoop .stopInLoop,
    .setConnect true, .queueInLoop .startInLoop, .doFunctor 0 attempt, .doFunctor 0 attempt,
    .doFunctor 0 attempt]
  have last := Machine.last_of_runHolds along rfl
  rcases last.connecting rfl with ⟨sockfd, channel, _⟩
  cases channel

end Connector

end MyBookSources.Net
