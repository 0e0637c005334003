import MyBookSources.AsyncLogger.AsyncLogger
import MyBookSources.Foundation.Fairness

/-! # The logger with a semaphore

Producers append lines to `cached_logs` under `log_mutex` and post `log_semphore` once for each;
consumers wait for the semaphore before they lock the mutex and take a line. No thread handles
signals, so a `sem_wait` returns only when it has decremented the semaphore.
-/

namespace MyBookSources.AsyncLoggerLinux

open AsyncLogger (Thread Program logText)

/-- The largest value of a semaphore. `sem_post` fails at this value, which nobody checks. -/
def SEM_VALUE_MAX : Nat := 2147483647

/-- Where a thread is. In `pushing` and `unlocking` a producer holds the mutex, in `taking` and
`leaving` a consumer does; in `locking` the `sem_wait` of a consumer has returned. -/
inductive Place
  | absent
  | producing
  | pushing (line : Bytes)
  | unlocking
  | posting
  | waiting
  | locking
  | taking
  | leaving (line : Bytes)
  | writing (line : Bytes)
  deriving DecidableEq

def Place.holds : Place → Bool
  | .pushing _ | .unlocking | .taking | .leaving _ => true
  | _ => false

/-- `pushed` and `taken` record the lines in the order in which they were appended and taken,
the latter with the threads that took them. -/
structure Logger where
  owner : Option Thread
  semaphore : Nat
  cachedLogs : List Bytes
  places : Thread → Place
  index : Thread → Nat
  logFile : Bytes
  pushed : List Bytes
  taken : List (Thread × Bytes)

/-- The thread whose next step is taken, and how much a write of it writes. -/
structure Turn where
  thread : Thread
  written : Nat
  deriving DecidableEq

namespace Logger

def create (program : Program) : Logger where
  owner := none
  semaphore := 0
  cachedLogs := []
  places
    | .producer id => if id < program.producers then .producing else .absent
    | .consumer id => if id < program.consumers then .waiting else .absent
  index _ := 0
  logFile := []
  pushed := []
  taken := []

variable (logger : Logger)

def move (thread : Thread) (place : Place) : Logger :=
  { logger with places := Function.update logger.places thread place }

def setOwner (owner : Option Thread) : Logger := { logger with owner := owner }

def setSemaphore (semaphore : Nat) : Logger := { logger with semaphore := semaphore }

def push (line : Bytes) : Logger :=
  { logger with
    cachedLogs := logger.cachedLogs ++ [line]
    pushed := logger.pushed ++ [line] }

/-- What a consumer does under the mutex, and the line that it has then. -/
def takeFront (thread : Thread) : Logger × Bytes :=
  match logger.cachedLogs with
  | [] => (logger, [])
  | line :: cachedLogs =>
      ({ logger with cachedLogs := cachedLogs, taken := logger.taken ++ [(thread, line)] }, line)

/-- `write_log_to_file`, where `fwrite` writes `written` bytes. -/
def writeLogToFile (line : Bytes) (written : Nat) : Logger :=
  { logger with logFile := logger.logFile ++ line.take written }

def step (program : Program) (logger : Logger) (turn : Turn) : Option Logger :=
  match logger.places turn.thread with
  | .absent => none
  | .producing =>
      if logger.owner = none then
        let index := logger.index turn.thread + 1
        some (({ logger with index := Function.update logger.index turn.thread index }.setOwner
          (some turn.thread)).move turn.thread
            (.pushing (logText index (program.threadID turn.thread.id))))
      else none
  | .pushing line => some ((logger.push line).move turn.thread .unlocking)
  | .unlocking => some ((logger.setOwner none).move turn.thread .posting)
  | .posting =>
      let semaphore :=
        if logger.semaphore < SEM_VALUE_MAX then logger.semaphore + 1 else logger.semaphore
      some ((logger.setSemaphore semaphore).move turn.thread .producing)
  | .waiting =>
      if 0 < logger.semaphore then
        some ((logger.setSemaphore (logger.semaphore - 1)).move turn.thread .locking)
      else none
  | .locking =>
      if logger.owner = none then
        some ((logger.setOwner (some turn.thread)).move turn.thread .taking)
      else none
  | .taking =>
      let (logger, line) := logger.takeFront turn.thread
      some (logger.move turn.thread (.leaving line))
  | .leaving line => some ((logger.setOwner none).move turn.thread (.writing line))
  | .writing line =>
      if line.isEmpty then some (logger.move turn.thread .waiting)
      else some ((logger.writeLogToFile line turn.written).move turn.thread .waiting)

end Logger

def machine (program : Program) : Machine Logger Turn := .ofPartial (Logger.step program)

variable {program : Program} {logger next : Logger} {turn : Turn}

/-! ## Places -/

inductive Role
  | nobody
  | producer
  | consumer
  deriving DecidableEq

namespace Place

def Follows : Place → Place → Prop
  | .producing, .pushing _ | .pushing _, .unlocking | .unlocking, .posting
  | .posting, .producing | .waiting, .locking | .locking, .taking | .taking, .leaving _
  | .leaving _, .writing _ | .writing _, .waiting => True
  | _, _ => False

def role : Place → Role
  | .absent => .nobody
  | .producing | .pushing _ | .unlocking | .posting => .producer
  | _ => .consumer

theorem role_of_follows {before after : Place} (follows : Follows before after) :
    after.role = before.role := by
  cases before <;> cases after <;> first | rfl | cases follows

/-- The steps that a producer is away from its `sem_post`. -/
def toPosting : Place → Nat
  | .producing => 3
  | .pushing _ => 2
  | .unlocking => 1
  | _ => 0

/-- The steps that a consumer is away from its `sem_wait`. -/
def toWaiting : Place → Nat
  | .locking => 4
  | .taking => 3
  | .leaving _ => 2
  | .writing _ => 1
  | _ => 0

theorem nearer_to_posting {before after : Place} (follows : Follows before after)
    (producer : before.role = .producer) (other : before ≠ .posting) :
    after.toPosting < before.toPosting := by
  cases before <;> cases after <;>
    first
    | exact False.elim follows
    | exact absurd rfl other
    | (simp [toPosting]; done)
    | exact nomatch producer

theorem nearer_to_waiting {before after : Place} (follows : Follows before after)
    (consumer : before.role = .consumer) (other : before ≠ .waiting) :
    after.toWaiting < before.toWaiting := by
  cases before <;> cases after <;>
    first
    | exact False.elim follows
    | exact absurd rfl other
    | (simp [toWaiting]; done)
    | exact nomatch consumer

end Place

/-! ## What a step does -/

namespace Logger

inductive Taken (logger : Logger) : Turn → Logger → Prop
  | lockProducer {turn : Turn} {line : Bytes} {index : Thread → Nat}
      (place : logger.places turn.thread = .producing) (free : logger.owner = none) :
      Taken logger turn
        (({ logger with index := index }.setOwner (some turn.thread)).move turn.thread
          (.pushing line))
  | push {turn : Turn} {line : Bytes} (place : logger.places turn.thread = .pushing line) :
      Taken logger turn ((logger.push line).move turn.thread .unlocking)
  | unlock {turn : Turn} (place : logger.places turn.thread = .unlocking) :
      Taken logger turn ((logger.setOwner none).move turn.thread .posting)
  | post {turn : Turn} {semaphore : Nat} (place : logger.places turn.thread = .posting)
      (positive : 0 < semaphore) (grown : logger.semaphore ≤ semaphore)
      (once : semaphore ≤ logger.semaphore + 1) :
      Taken logger turn ((logger.setSemaphore semaphore).move turn.thread .producing)
  | semWait {turn : Turn} (place : logger.places turn.thread = .waiting)
      (positive : 0 < logger.semaphore) :
      Taken logger turn
        ((logger.setSemaphore (logger.semaphore - 1)).move turn.thread .locking)
  | lockConsumer {turn : Turn} (place : logger.places turn.thread = .locking)
      (free : logger.owner = none) :
      Taken logger turn ((logger.setOwner (some turn.thread)).move turn.thread .taking)
  | takeNothing {turn : Turn} (place : logger.places turn.thread = .taking)
      (empty : logger.cachedLogs = []) :
      Taken logger turn (logger.move turn.thread (.leaving []))
  | take {turn : Turn} {line : Bytes} {cachedLogs : List Bytes}
      (place : logger.places turn.thread = .taking)
      (found : logger.cachedLogs = line :: cachedLogs) :
      Taken logger turn
        ({ logger with
          cachedLogs := cachedLogs
          taken := logger.taken ++ [(turn.thread, line)] }.move turn.thread (.leaving line))
  | leave {turn : Turn} {line : Bytes} (place : logger.places turn.thread = .leaving line) :
      Taken logger turn ((logger.setOwner none).move turn.thread (.writing line))
  | write {turn : Turn} {line logFile : Bytes}
      (place : logger.places turn.thread = .writing line) :
      Taken logger turn ({ logger with logFile := logFile }.move turn.thread .waiting)

theorem taken_of_step (step : logger.step program turn = some next) :
    Taken logger turn next := by
  rw [Logger.step] at step
  split at step
  · cases step
  · next place =>
    split at step
    · next free =>
      cases step
      exact .lockProducer place free
    · cases step
  · next line place =>
    cases step
    exact .push place
  · next place =>
    cases step
    exact .unlock place
  · next place =>
    cases step
    apply Taken.post place
    · split
      · exact Nat.succ_pos _
      · next full => exact Nat.lt_of_lt_of_le (by decide) (Nat.le_of_not_lt full)
    · split
      · exact Nat.le_succ _
      · exact Nat.le_refl _
    · split
      · exact Nat.le_refl _
      · exact Nat.le_succ _
  · next place =>
    split at step
    · next positive =>
      cases step
      exact .semWait place positive
    · cases step
  · next place =>
    split at step
    · next free =>
      cases step
      exact .lockConsumer place free
    · cases step
  · next place =>
    simp only [takeFront] at step
    cases found : logger.cachedLogs with
    | nil =>
        simp only [found] at step
        cases step
        exact .takeNothing place found
    | cons line cachedLogs =>
        simp only [found] at step
        cases step
        exact .take place found
  · next line place =>
    cases step
    exact .leave place
  · next line place =>
    split at step
    · cases step
      exact .write place
    · cases step
      exact .write place

/-! ## Tickets -/

/-- A consumer whose `sem_wait` has returned, and a producer that has not yet posted for its
line, stands for one line of the list. -/
def ticket : Place → Nat
  | .unlocking | .posting | .locking | .taking => 1
  | _ => 0

/-- Every post and every ticket has a line in the list, and the lines that were taken and those
in the list are the lines that were appended. -/
structure Sound (program : Program) (logger : Logger) : Prop where
  exclusive : Threads.Exclusive Place.holds logger.owner logger.places
  owned : Threads.Owned Place.holds logger.owner logger.places
  present : ∀ thread, logger.places thread ≠ .absent → thread ∈ program.threads
  tickets : logger.semaphore + Threads.total program.threads ticket logger.places ≤
    logger.cachedLogs.length
  order : logger.taken.map Prod.snd ++ logger.cachedLogs = logger.pushed

theorem create_place (program : Program) (thread : Thread) :
    (create program).places thread = .absent ∨
      thread ∈ program.threads ∧ ((create program).places thread = .producing ∨
        (create program).places thread = .waiting) := by
  cases thread with
  | producer id =>
      simp only [create]
      split
      · next some => exact .inr ⟨Program.producer_mem some, .inl rfl⟩
      · exact .inl rfl
  | consumer id =>
      simp only [create]
      split
      · next some => exact .inr ⟨Program.consumer_mem some, .inr rfl⟩
      · exact .inl rfl

theorem create_sound (program : Program) : (create program).Sound program where
  exclusive := by
    apply Threads.Exclusive.initial
    intro thread
    rcases create_place program thread with place | ⟨_, place | place⟩ <;> rw [place] <;> rfl
  owned := .free
  present thread there := by
    rcases create_place program thread with place | ⟨member, _⟩
    · exact absurd place there
    · exact member
  tickets := by
    have none : Threads.total program.threads ticket (create program).places = 0 := by
      apply Finset.sum_eq_zero
      intro thread _
      rcases create_place program thread with place | ⟨_, place | place⟩ <;> rw [place] <;> rfl
    rw [none]
    exact Nat.le_refl 0
  order := rfl

theorem Sound.move (sound : logger.Sound program) {thread : Thread} {place : Place}
    {owner : Option Thread} {semaphore : Nat} {cachedLogs pushed : List Bytes}
    {index : Thread → Nat} {logFile : Bytes} {taken : List (Thread × Bytes)}
    (there : logger.places thread ≠ .absent)
    (exclusive : Threads.Exclusive Place.holds owner (Function.update logger.places thread place))
    (owned : Threads.Owned Place.holds owner (Function.update logger.places thread place))
    (tickets : semaphore + ticket place + logger.cachedLogs.length ≤
      cachedLogs.length + (logger.semaphore + ticket (logger.places thread)))
    (order : taken.map Prod.snd ++ cachedLogs = pushed) :
    (Logger.move ⟨owner, semaphore, cachedLogs, logger.places, index, logFile, pushed, taken⟩
      thread place).Sound program where
  exclusive := exclusive
  owned := owned
  present other isThere := by
    by_cases same : other = thread
    · rw [same]
      exact sound.present thread there
    · simp only [Logger.move, Function.update_of_ne same] at isThere
      exact sound.present other isThere
  tickets := by
    have before := sound.tickets
    have moved : Threads.total program.threads ticket
          (Function.update logger.places thread place) + ticket (logger.places thread) =
        Threads.total program.threads ticket logger.places + ticket place :=
      Threads.total_update (sound.present thread there) place
    simp only [Logger.move]
    omega
  order := order

theorem Sound.cachedLogs_ne_nil (sound : logger.Sound program) {thread : Thread}
    (holder : ticket (logger.places thread) = 1) : logger.cachedLogs ≠ [] := by
  have there : logger.places thread ≠ .absent := by
    intro absent
    rw [absent] at holder
    cases holder
  have within : ticket (logger.places thread) ≤
      Threads.total program.threads ticket logger.places :=
    Threads.weight_le_total (sound.present thread there)
  have tickets := sound.tickets
  intro empty
  rw [empty, List.length_nil] at tickets
  omega

theorem Sound.step (sound : logger.Sound program)
    (taken : logger.step program turn = some next) : next.Sound program := by
  have there : ∀ {place : Place}, logger.places turn.thread = place → place ≠ .absent →
      logger.places turn.thread ≠ .absent := by
    intro place same other
    rwa [same]
  have held : ∀ {place : Place}, logger.places turn.thread = place → place.holds = true →
      (logger.places turn.thread).holds = true := by
    intro place same holds
    rwa [same]
  have away : ∀ {place : Place}, logger.places turn.thread = place → place.holds = false →
      (logger.places turn.thread).holds = false := by
    intro place same outside
    rwa [same]
  have free : logger.owner = none → Threads.Exclusive Place.holds none logger.places := by
    intro unowned
    rw [← unowned]
    exact sound.exclusive
  cases taken_of_step taken with
  | lockProducer place unowned =>
      exact sound.move (there place (by simp)) (free unowned).acquire (.acquire rfl)
        (by simp only [place, ticket]; omega) sound.order
  | @push line place =>
      exact sound.move (there place (by simp)) (sound.exclusive.keep (held place rfl))
        (sound.owned.keep rfl)
        (by simp only [place, ticket, List.length_append, List.length_singleton]; omega)
        (by rw [← List.append_assoc, sound.order])
  | unlock place =>
      exact sound.move (there place (by simp)) (sound.exclusive.release (held place rfl) rfl)
        .free (by simp only [place, ticket]; omega) sound.order
  | post place positive grown once =>
      exact sound.move (there place (by simp)) (sound.exclusive.outside rfl)
        (sound.owned.outside (away place rfl)) (by simp only [place, ticket]; omega) sound.order
  | semWait place positive =>
      exact sound.move (there place (by simp)) (sound.exclusive.outside rfl)
        (sound.owned.outside (away place rfl)) (by simp only [place, ticket]; omega) sound.order
  | lockConsumer place unowned =>
      exact sound.move (there place (by simp)) (free unowned).acquire (.acquire rfl)
        (by simp only [place, ticket]; omega) sound.order
  | takeNothing place empty =>
      exact absurd empty (sound.cachedLogs_ne_nil (by rw [place]; rfl))
  | take place found =>
      have order := sound.order
      rw [found] at order
      exact sound.move (there place (by simp)) (sound.exclusive.keep (held place rfl))
        (sound.owned.keep rfl)
        (by simp only [place, ticket, found, List.length_cons]; omega)
        (by simpa using order)
  | leave place =>
      exact sound.move (there place (by simp)) (sound.exclusive.release (held place rfl) rfl)
        .free (by simp only [place, ticket]; omega) sound.order
  | write place =>
      exact sound.move (there place (by simp)) (sound.exclusive.outside rfl)
        (sound.owned.outside (away place rfl)) (by simp only [place, ticket]; omega) sound.order

theorem sound_of_transitions {turns : List Turn}
    (run : (machine program).Transitions (create program) turns logger) :
    logger.Sound program :=
  run.invariant (fun _ _ _ sound taken => sound.step taken) (create_sound program)

/-! ## Where a thread goes -/

theorem Taken.follows (taken : Taken logger turn next) :
    Place.Follows (logger.places turn.thread) (next.places turn.thread) := by
  have moved : ∀ {middle : Logger} {before after : Place}, logger.places turn.thread = before →
      Place.Follows before after →
      Place.Follows (logger.places turn.thread)
        ((middle.move turn.thread after).places turn.thread) := by
    intro middle before after same follows
    have there : (middle.move turn.thread after).places turn.thread = after :=
      Function.update_self _ _ _
    rw [same, there]
    exact follows
  cases taken with
  | lockProducer place => exact moved place trivial
  | push place => exact moved place trivial
  | unlock place => exact moved place trivial
  | post place => exact moved place trivial
  | semWait place => exact moved place trivial
  | lockConsumer place => exact moved place trivial
  | takeNothing place => exact moved place trivial
  | take place => exact moved place trivial
  | leave place => exact moved place trivial
  | write place => exact moved place trivial

theorem Taken.others (taken : Taken logger turn next) {thread : Thread}
    (other : thread ≠ turn.thread) : next.places thread = logger.places thread := by
  cases taken <;> exact Function.update_of_ne other _ _

theorem role_of_transitions {turns : List Turn}
    (run : (machine program).Transitions (create program) turns logger) (thread : Thread) :
    (logger.places thread).role = ((create program).places thread).role := by
  have kept : ∀ before turn after,
      (before.places thread).role = ((create program).places thread).role →
      (machine program).Step before turn after →
      (after.places thread).role = ((create program).places thread).role := by
    intro before turn after same taken
    have step := taken_of_step taken
    rw [← same]
    by_cases moves : thread = turn.thread
    · rw [moves]
      exact Place.role_of_follows step.follows
    · rw [step.others moves]
  exact run.invariant kept rfl

theorem Taken.pushed_isPrefix (taken : Taken logger turn next) : logger.pushed <+: next.pushed := by
  cases taken with
  | push place => exact List.prefix_append _ _
  | _ => exact List.prefix_refl _

theorem Taken.taken_le (taken : Taken logger turn next) :
    logger.taken.length ≤ next.taken.length := by
  cases taken with
  | take place found => simp [Logger.move]
  | _ => exact Nat.le_refl _

theorem Sound.taken_lt (sound : logger.Sound program) (taken : Taken logger turn next)
    (place : logger.places turn.thread = .taking) :
    logger.taken.length < next.taken.length := by
  cases taken with
  | take _ found => simp [Logger.move]
  | takeNothing _ empty => exact absurd empty (sound.cachedLogs_ne_nil (by rw [place]; rfl))
  | _ place' =>
    rw [place] at place'
    cases place'

theorem Taken.owner_none (taken : Taken logger turn next)
    (place : logger.places turn.thread = .unlocking ∨
      ∃ line, logger.places turn.thread = .leaving line) : next.owner = none := by
  cases taken with
  | unlock => rfl
  | leave => rfl
  | _ place' =>
    rw [place'] at place
    rcases place with place | ⟨line, place⟩ <;> cases place

theorem Taken.semaphore_pos (taken : Taken logger turn next)
    (place : logger.places turn.thread = .posting) : 0 < next.semaphore := by
  cases taken with
  | post _ positive => exact positive
  | _ place' =>
    rw [place] at place'
    cases place'

theorem Taken.semaphore_le (taken : Taken logger turn next)
    (place : logger.places turn.thread ≠ .waiting) : logger.semaphore ≤ next.semaphore := by
  cases taken with
  | post _ _ grown => exact grown
  | semWait waits => exact absurd waits place
  | _ => exact Nat.le_refl _

def CanMove (logger : Logger) : Place → Prop
  | .absent => False
  | .producing | .locking => logger.owner = none
  | .waiting => 0 < logger.semaphore
  | _ => True

theorem enabled_of_canMove {thread : Thread} {place : Place}
    (now : logger.places thread = place) (can : logger.CanMove place) :
    (machine program).Enabled (fun turn => turn.thread = thread) logger := by
  have defined : (Logger.step program logger ⟨thread, 0⟩).isSome = true := by
    rw [Logger.step]
    simp only [now]
    cases place with
    | absent => cases can
    | producing =>
        simp only [CanMove] at can
        simp [can]
    | locking =>
        simp only [CanMove] at can
        simp [can]
    | waiting =>
        simp only [CanMove] at can
        simp [can]
    | writing line =>
        dsimp only
        split <;> rfl
    | _ => rfl
  rcases Option.isSome_iff_exists.mp defined with ⟨next, taken⟩
  exact ⟨⟨thread, 0⟩, next, rfl, taken⟩

end Logger

/-! ## Endless runs -/

section

open Logger Machine

variable (run : (machine program).EndlessRun (create program))

theorem taken_at (time : Nat) :
    Taken (run.states time) (run.labels time) (run.states (time + 1)) :=
  taken_of_step (run.steps time)

theorem sound_at (time : Nat) : (run.states time).Sound program :=
  sound_of_transitions (run.transitions time)

theorem role_at (time : Nat) (thread : Thread) :
    ((run.states time).places thread).role =
      ((create program).places thread).role :=
  role_of_transitions (run.transitions time) thread

variable {run} (fair : ∀ thread, run.Fair fun turn => turn.thread = thread)

include fair

theorem moves_on {thread : Thread} {place : Place} {time : Nat}
    (now : (run.states time).places thread = place)
    (often : ∀ later, time ≤ later →
      (∀ between, time ≤ between → (run.states between).places thread = place) →
      ∃ able, later ≤ able ∧ (run.states able).CanMove place) :
    ∃ later, time ≤ later ∧ (run.labels later).thread = thread ∧
      (run.states later).places thread = place ∧
      Place.Follows place ((run.states (later + 1)).places thread) := by
  have stays : ∀ later, time ≤ later → (run.states later).places thread = place →
      ¬ (run.labels later).thread = thread →
      (run.states (later + 1)).places thread = place := by
    intro later _ there other
    rw [(taken_at run later).others (Ne.symm other), there]
  have enabled : ∀ later, time ≤ later →
      (∀ between, time ≤ between → (run.states between).places thread = place) →
      ∃ able, later ≤ able ∧
        (machine program).Enabled (fun turn => turn.thread = thread) (run.states able) := by
    intro later after there
    rcases often later after there with ⟨able, behind, can⟩
    exact ⟨able, behind, enabled_of_canMove (there able (after.trans behind)) can⟩
  rcases (fair thread).acts (fun logger : Logger => logger.places thread = place) stays enabled
    now with ⟨later, after, acts, there⟩
  have follows := (taken_at run later).follows
  rw [acts, there] at follows
  exact ⟨later, after, acts, there, follows⟩

theorem moves_on_freely {thread : Thread} {place : Place} {time : Nat}
    (now : (run.states time).places thread = place)
    (can : ∀ logger, Logger.CanMove logger place) :
    ∃ later, time ≤ later ∧ (run.labels later).thread = thread ∧
      (run.states later).places thread = place ∧
      Place.Follows place ((run.states (later + 1)).places thread) :=
  moves_on fair now fun later _ _ => ⟨later, Nat.le_refl _, can _⟩

theorem owner_none_often (time : Nat) :
    ∃ later, time ≤ later ∧ (run.states later).owner = none := by
  have leaves : ∀ {thread : Thread} {place : Place} {time : Nat},
      (run.states time).places thread = place → (∀ logger, Logger.CanMove logger place) →
      (place = .unlocking ∨ ∃ line, place = .leaving line) →
      ∃ later, time ≤ later ∧ (run.states later).owner = none := by
    intro thread place time now can last
    rcases moves_on_freely fair now can with ⟨later, after, acts, there, _⟩
    rw [← there, ← acts] at last
    exact ⟨later + 1, Nat.le_succ_of_le after, (taken_at run later).owner_none last⟩
  cases owner : (run.states time).owner with
  | none => exact ⟨time, Nat.le_refl _, owner⟩
  | some thread =>
      have held := (sound_at run time).owned thread owner
      cases place : (run.states time).places thread with
      | pushing line =>
          rcases moves_on_freely fair place (fun _ => trivial) with ⟨later, after, _, _, follows⟩
          cases next : (run.states (later + 1)).places thread with
          | unlocking =>
              rcases leaves next (fun _ => trivial) (.inl rfl) with ⟨free, behind, none⟩
              exact ⟨free, after.trans ((Nat.le_succ _).trans behind), none⟩
          | _ =>
              rw [next] at follows
              cases follows
      | unlocking => exact leaves place (fun _ => trivial) (.inl rfl)
      | taking =>
          rcases moves_on_freely fair place (fun _ => trivial) with ⟨later, after, _, _, follows⟩
          cases next : (run.states (later + 1)).places thread with
          | leaving line =>
              rcases leaves next (fun _ => trivial) (.inr ⟨line, rfl⟩) with ⟨free, behind, none⟩
              exact ⟨free, after.trans ((Nat.le_succ _).trans behind), none⟩
          | _ =>
              rw [next] at follows
              cases follows
      | leaving line => exact leaves place (fun _ => trivial) (.inr ⟨line, rfl⟩)
      | _ =>
          rw [place] at held
          cases held

theorem moves_on_unless_waiting {thread : Thread} {place : Place} {time : Nat}
    (now : (run.states time).places thread = place) (present : place ≠ .absent)
    (passed : place ≠ .waiting) :
    ∃ later, time ≤ later ∧ (run.labels later).thread = thread ∧
      (run.states later).places thread = place ∧
      Place.Follows place ((run.states (later + 1)).places thread) := by
  apply moves_on fair now
  intro later _ _
  cases place with
  | absent => exact absurd rfl present
  | waiting => exact absurd rfl passed
  | producing => exact owner_none_often fair later
  | locking => exact owner_none_often fair later
  | _ => exact ⟨later, Nat.le_refl _, trivial⟩

/-- A thread comes to a place of its code, if it comes nearer with each step and none of the
places before is in front of the semaphore. -/
theorem reaches {role : Role} {target : Place} {rank : Place → Nat} (present : role ≠ .nobody)
    (passes : ∀ place : Place, place.role = role → place ≠ target → place ≠ .waiting)
    (nearer : ∀ {before after : Place}, before.Follows after → before.role = role →
      before ≠ target → rank after < rank before)
    {thread : Thread} {time : Nat} (now : ((run.states time).places thread).role = role) :
    ∃ later, time ≤ later ∧ (run.states later).places thread = target := by
  induction distance : rank ((run.states time).places thread) using Nat.strong_induction_on
    generalizing time with
  | h distance induction =>
      by_cases there : (run.states time).places thread = target
      · exact ⟨time, Nat.le_refl _, there⟩
      · have someone : (run.states time).places thread ≠ .absent := by
          intro absent
          rw [absent] at now
          exact present now.symm
        rcases moves_on_unless_waiting fair rfl someone (passes _ now there) with
          ⟨later, after, _, _, follows⟩
        have same := Place.role_of_follows follows
        rw [now] at same
        have closer := nearer follows now there
        rw [distance] at closer
        rcases induction _ closer same rfl with ⟨last, behind, reached⟩
        exact ⟨last, after.trans ((Nat.le_succ _).trans behind), reached⟩

theorem posts_often {thread : Thread}
    (producer : ((create program).places thread).role = .producer) (time : Nat) :
    ∃ later, time ≤ later ∧ (run.labels later).thread = thread ∧
      (run.states later).places thread = .posting := by
  have passes : ∀ place : Place, place.role = .producer → place ≠ .posting →
      place ≠ .waiting := by
    rintro place isProducer _ rfl
    cases isProducer
  rcases reaches fair (by decide) passes Place.nearer_to_posting
    ((role_at run time thread).trans producer) with ⟨ready, after, posting⟩
  rcases moves_on_freely fair posting (fun _ => trivial) with ⟨later, behind, acts, there, _⟩
  exact ⟨later, after.trans behind, acts, there⟩

theorem waits_often {thread : Thread}
    (consumer : ((create program).places thread).role = .consumer) (time : Nat) :
    ∃ later, time ≤ later ∧ (run.states later).places thread = .waiting :=
  reaches fair (by decide) (fun _ _ other => other) Place.nearer_to_waiting
    ((role_at run time thread).trans consumer)

omit fair in
theorem taken_mono {time later : Nat} (after : time ≤ later) :
    (run.states time).taken.length ≤ (run.states later).taken.length :=
  EndlessRun.preserved (fun logger : Logger => (run.states time).taken.length ≤ logger.taken.length)
    (fun between _ holds => holds.trans (taken_at run between).taken_le) (Nat.le_refl _) after

theorem taken_after_semWait {time : Nat}
    (waits : (run.states time).places (run.labels time).thread = .waiting) :
    ∃ later, time ≤ later ∧
      (run.states time).taken.length < (run.states later).taken.length := by
  have follows := (taken_at run time).follows
  rw [waits] at follows
  have locking : (run.states (time + 1)).places (run.labels time).thread = .locking := by
    cases place : (run.states (time + 1)).places (run.labels time).thread with
    | locking => rfl
    | _ =>
        rw [place] at follows
        cases follows
  rcases moves_on_unless_waiting fair locking (by simp) (by simp) with
    ⟨locked, afterWait, _, _, followsLock⟩
  have taking : (run.states (locked + 1)).places (run.labels time).thread = .taking := by
    cases place : (run.states (locked + 1)).places (run.labels time).thread with
    | taking => rfl
    | _ =>
        rw [place] at followsLock
        cases followsLock
  rcases moves_on_freely fair taking (fun _ => trivial) with
    ⟨last, afterLock, acts, there, _⟩
  rw [← acts] at there
  have more := (sound_at run last).taken_lt (taken_at run last) there
  have before : (run.states time).taken.length ≤ (run.states last).taken.length :=
    taken_mono (by omega)
  exact ⟨last + 1, by omega, by omega⟩

theorem taken_often (some_producer : 0 < program.producers)
    (some_consumer : 0 < program.consumers) (time : Nat) :
    ∃ later, time ≤ later ∧
      (run.states time).taken.length < (run.states later).taken.length := by
  have producer : ((create program).places (.producer 0)).role = .producer := by
    simp [create, some_producer, Place.role]
  have consumer : ((create program).places (.consumer 0)).role = .consumer := by
    simp [create, some_consumer, Place.role]
  rcases waits_often fair consumer time with ⟨waitTime, afterTime, waiting⟩
  by_contra never
  -- Nobody passes the semaphore any more, so the posts stay and the consumer may pass it.
  have nobody : ∀ later, time ≤ later →
      (run.states later).places (run.labels later).thread ≠ .waiting := by
    intro later after passes
    rcases taken_after_semWait fair passes with ⟨last, behind, more⟩
    have before : (run.states time).taken.length ≤ (run.states later).taken.length :=
      taken_mono after
    exact never ⟨last, after.trans behind, Nat.lt_of_le_of_lt before more⟩
  rcases posts_often fair producer waitTime with ⟨postTime, afterWait, acts, posting⟩
  rw [← acts] at posting
  have posted := (taken_at run postTime).semaphore_pos posting
  have positive : ∀ later, postTime + 1 ≤ later → 0 < (run.states later).semaphore := by
    intro later after
    exact EndlessRun.preserved (fun logger : Logger => 0 < logger.semaphore)
      (fun between behind holds =>
        Nat.lt_of_lt_of_le holds ((taken_at run between).semaphore_le (nobody between (by omega))))
      posted after
  have stillWaiting : (run.states (postTime + 1)).places (.consumer 0) = .waiting := by
    apply EndlessRun.preserved (fun logger : Logger => logger.places (.consumer 0) = .waiting) _
      waiting (show waitTime ≤ postTime + 1 by omega)
    intro between behind holds
    rw [(taken_at run between).others, holds]
    intro same
    apply nobody between (by omega)
    rw [← same, holds]
  rcases moves_on fair stillWaiting
    (fun later after _ => ⟨later, Nat.le_refl _, positive later after⟩) with
    ⟨later, after, passes, there, _⟩
  apply nobody later (by omega)
  rw [passes, there]

theorem taken_unbounded (some_producer : 0 < program.producers)
    (some_consumer : 0 < program.consumers) (time count : Nat) :
    ∃ later, time ≤ later ∧ count ≤ (run.states later).taken.length := by
  induction count with
  | zero => exact ⟨time, Nat.le_refl _, Nat.zero_le _⟩
  | succ count induction =>
      rcases induction with ⟨middle, after, enough⟩
      rcases taken_often fair some_producer some_consumer middle with ⟨later, behind, more⟩
      exact ⟨later, after.trans behind, Nat.lt_of_le_of_lt enough more⟩

end

theorem producers_pos_of_role {thread : Thread}
    (producer : ((Logger.create program).places thread).role = .producer) :
    0 < program.producers := by
  cases thread with
  | producer id =>
      simp only [Logger.create] at producer
      split at producer
      · next some => exact Nat.lt_of_le_of_lt (Nat.zero_le id) some
      · cases producer
  | consumer id =>
      simp only [Logger.create] at producer
      split at producer <;> cases producer

theorem producers_pos {first : Logger} {turns : List Turn}
    (run : (machine program).Transitions first turns logger)
    (start : first = Logger.create program) (filled : logger.pushed ≠ []) :
    0 < program.producers := by
  induction run with
  | nil =>
      rw [start] at filled
      exact absurd rfl filled
  | @snoc middle last turns turn earlier step induction =>
      rw [start] at earlier
      cases Logger.taken_of_step step with
      | push place =>
          have role := Logger.role_of_transitions earlier turn.thread
          rw [place] at role
          exact producers_pos_of_role role.symm
      | _ => exact induction filled

open Logger Machine in
/-- Whoever has passed the semaphore finds a line; the lines are taken in the order in which
they were appended, each of them once; and with a consumer each is taken in the end, if no
thread is passed over for ever. -/
theorem lines_taken_once_in_order (program : Program) :
    (∀ turns logger, (machine program).Transitions (create program) turns logger →
      (∀ thread, logger.places thread = .taking → logger.cachedLogs ≠ []) ∧
        logger.taken.map Prod.snd ++ logger.cachedLogs = logger.pushed) ∧
    ∀ run : (machine program).EndlessRun (create program), 0 < program.consumers →
      (∀ thread, run.Fair fun turn => turn.thread = thread) →
      ∀ time, ∃ later, time ≤ later ∧
        (run.states time).pushed <+: (run.states later).taken.map Prod.snd := by
  constructor
  · intro turns logger run
    have sound := sound_of_transitions run
    constructor
    · intro thread takes
      exact sound.cachedLogs_ne_nil (by rw [takes]; rfl)
    · exact sound.order
  · intro run some_consumer fair time
    by_cases filled : (run.states time).pushed = []
    · exact ⟨time, Nat.le_refl _, by rw [filled]; exact List.nil_prefix⟩
    · have some_producer := producers_pos (run.transitions time) rfl filled
      rcases taken_unbounded fair some_producer some_consumer time
        (run.states time).pushed.length with ⟨later, after, enough⟩
      have grown : (run.states time).pushed <+: (run.states later).pushed :=
        EndlessRun.preserved
          (fun logger : Logger => (run.states time).pushed <+: logger.pushed)
          (fun between _ holds => holds.trans (taken_at run between).pushed_isPrefix)
          List.prefix_rfl after
      rw [← (sound_at run later).order] at grown
      refine ⟨later, after, List.prefix_of_prefix_length_le grown (List.prefix_append _ _) ?_⟩
      rwa [List.length_map]

/-! ## A fair run of one producer and one consumer -/

def twoThreads : Program := ⟨1, 1, fun _ => ascii "7"⟩

/-- The two threads go through their loops in turn, four steps and five. -/
def turnAt (time : Nat) : Turn :=
  if time % 9 < 4 then ⟨.producer 0, 0⟩ else ⟨.consumer 0, 100⟩

def stateAt : Nat → Logger
  | 0 => .create twoThreads
  | time + 1 => ((stateAt time).step twoThreads (turnAt time)).getD (stateAt time)

def Phase (logger : Logger) : Nat → Prop
  | 0 => logger.owner = none ∧ logger.semaphore = 0 ∧ logger.places (.producer 0) = .producing ∧
      logger.places (.consumer 0) = .waiting
  | 1 => logger.semaphore = 0 ∧ (∃ line, logger.places (.producer 0) = .pushing line) ∧
      logger.places (.consumer 0) = .waiting
  | 2 => logger.semaphore = 0 ∧ logger.places (.producer 0) = .unlocking ∧
      logger.places (.consumer 0) = .waiting
  | 3 => logger.owner = none ∧ logger.semaphore = 0 ∧ logger.places (.producer 0) = .posting ∧
      logger.places (.consumer 0) = .waiting
  | 4 => logger.owner = none ∧ logger.semaphore = 1 ∧ logger.places (.producer 0) = .producing ∧
      logger.places (.consumer 0) = .waiting
  | 5 => logger.owner = none ∧ logger.semaphore = 0 ∧ logger.places (.producer 0) = .producing ∧
      logger.places (.consumer 0) = .locking
  | 6 => logger.semaphore = 0 ∧ logger.places (.producer 0) = .producing ∧
      logger.places (.consumer 0) = .taking
  | 7 => logger.semaphore = 0 ∧ logger.places (.producer 0) = .producing ∧
      ∃ line, logger.places (.consumer 0) = .leaving line
  | _ => logger.owner = none ∧ logger.semaphore = 0 ∧
      logger.places (.producer 0) = .producing ∧
      ∃ line, logger.places (.consumer 0) = .writing line

theorem Phase.step {time : Nat} (phase : Phase logger (time % 9)) :
    ∃ next, logger.step twoThreads (turnAt time) = some next ∧ Phase next ((time + 1) % 9) := by
  have bound : time % 9 < 9 := Nat.mod_lt _ (by decide)
  generalize now : time % 9 = count at phase bound
  have after : (time + 1) % 9 = (count + 1) % 9 := by omega
  rw [after, turnAt, now]
  match count, phase, bound with
  | 0, ⟨owner, semaphore, producer, consumer⟩, _ =>
      simp [Logger.step, Phase, Logger.move, Logger.setOwner, owner, semaphore, producer, consumer]
  | 1, ⟨semaphore, ⟨line, producer⟩, consumer⟩, _ =>
      simp [Logger.step, Phase, Logger.move, Logger.push, semaphore, producer, consumer]
  | 2, ⟨semaphore, producer, consumer⟩, _ =>
      simp [Logger.step, Phase, Logger.move, Logger.setOwner, semaphore, producer, consumer]
  | 3, ⟨owner, semaphore, producer, consumer⟩, _ =>
      simp [Logger.step, Phase, Logger.move, Logger.setSemaphore, SEM_VALUE_MAX, owner, semaphore,
        producer, consumer]
  | 4, ⟨owner, semaphore, producer, consumer⟩, _ =>
      simp [Logger.step, Phase, Logger.move, Logger.setSemaphore, owner, semaphore, producer,
        consumer]
  | 5, ⟨owner, semaphore, producer, consumer⟩, _ =>
      simp [Logger.step, Phase, Logger.move, Logger.setOwner, owner, semaphore, producer, consumer]
  | 6, ⟨semaphore, producer, consumer⟩, _ =>
      cases found : logger.cachedLogs <;>
        simp [Logger.step, Phase, Logger.move, Logger.takeFront, found, semaphore, producer,
          consumer]
  | 7, ⟨semaphore, producer, ⟨line, consumer⟩⟩, _ =>
      simp [Logger.step, Phase, Logger.move, Logger.setOwner, semaphore, producer, consumer]
  | 8, ⟨owner, semaphore, producer, ⟨line, consumer⟩⟩, _ =>
      cases empty : line.isEmpty <;>
        simp [Logger.step, Phase, Logger.move, Logger.writeLogToFile, empty, owner, semaphore,
          producer, consumer]
  | count + 9, _, bound => omega

theorem phase_at (time : Nat) : Phase (stateAt time) (time % 9) := by
  induction time with
  | zero => exact ⟨rfl, rfl, rfl, rfl⟩
  | succ time induction =>
      rcases induction.step with ⟨next, taken, phase⟩
      rw [stateAt, taken]
      exact phase

def fairRun : (machine twoThreads).EndlessRun (Logger.create twoThreads) where
  states := stateAt
  labels := turnAt
  start := rfl
  steps time := by
    rcases (phase_at time).step with ⟨next, taken, _⟩
    change (stateAt time).step twoThreads (turnAt time) = some (stateAt (time + 1))
    rw [stateAt, taken, Option.getD_some]

theorem fairRun_fair (thread : Thread) : fairRun.Fair fun turn => turn.thread = thread := by
  intro often time
  have round : ∀ offset, offset < 9 → (9 * (time + 1) + offset) % 9 = offset := by
    intro offset small
    omega
  by_cases producer : thread = .producer 0
  · refine ⟨9 * (time + 1) + 0, by omega, ?_⟩
    change (turnAt (9 * (time + 1) + 0)).thread = thread
    rw [turnAt, round 0 (by decide), producer]
    rfl
  by_cases consumer : thread = .consumer 0
  · refine ⟨9 * (time + 1) + 4, by omega, ?_⟩
    change (turnAt (9 * (time + 1) + 4)).thread = thread
    rw [turnAt, round 4 (by decide), consumer]
    rfl
  · rcases often time with ⟨later, _, turn, next, rfl, taken⟩
    have role := role_at fairRun later turn.thread
    have absent : ((Logger.create twoThreads).places turn.thread) = .absent := by
      cases same : turn.thread with
      | producer id =>
          rw [same] at producer
          refine if_neg ?_
          simp only [twoThreads, Thread.producer.injEq] at producer ⊢
          omega
      | consumer id =>
          rw [same] at consumer
          refine if_neg ?_
          simp only [twoThreads, Thread.consumer.injEq] at consumer ⊢
          omega
    rw [absent] at role
    cases place : (fairRun.states later).places turn.thread with
    | absent =>
        change (fairRun.states later).step twoThreads turn = some next at taken
        rw [Logger.step] at taken
        simp only [place] at taken
        cases taken
    | _ =>
        rw [place] at role
        cases role

/-- In the fair run of the two threads every line is taken in the end. -/
theorem lines_taken_once_in_order_two : ∀ time, ∃ later, time ≤ later ∧
    (stateAt time).pushed <+: (stateAt later).taken.map Prod.snd :=
  (lines_taken_once_in_order twoThreads).2 fairRun (by decide) fairRun_fair

end MyBookSources.AsyncLoggerLinux
