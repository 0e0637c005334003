import MyBookSources.Foundation.Bytes
import MyBookSources.Foundation.Execution
import MyBookSources.Foundation.Threads

/-! # The logger with a condition variable

Producers append lines to `cached_logs` under `log_mutex` and notify; consumers take lines from
it. A consumer that finds the list empty waits on `log_cv` once, and takes the front of the
list when the wait returns, for whatever reason it does.
-/

namespace MyBookSources.AsyncLogger

def logText (index : Nat) (threadID : Bytes) : Bytes :=
  ascii "This is log, index: " ++ ascii (toString index) ++ ascii ", producer threadID: " ++
    threadID ++ ascii "\n"

inductive Thread
  | producer (id : Nat)
  | consumer (id : Nat)
  deriving DecidableEq

def Thread.id : Thread → Nat
  | producer id | consumer id => id

/-- The threads that `main` starts, and how the id of a producer prints. -/
structure Program where
  producers : Nat
  consumers : Nat
  threadID : Nat → Bytes

def Program.threads (program : Program) : Finset Thread :=
  (Finset.range program.producers).image .producer ∪
    (Finset.range program.consumers).image .consumer

theorem Program.producer_mem {program : Program} {id : Nat} (some : id < program.producers) :
    .producer id ∈ program.threads :=
  Finset.mem_union_left _ (Finset.mem_image_of_mem _ (Finset.mem_range.mpr some))

theorem Program.consumer_mem {program : Program} {id : Nat} (some : id < program.consumers) :
    .consumer id ∈ program.threads :=
  Finset.mem_union_right _ (Finset.mem_image_of_mem _ (Finset.mem_range.mpr some))

/-- Where a thread is. In `emplacing`, `notifying` and `leaving` a producer holds the mutex, in
`testing` and `taking` a consumer does; a `woken` consumer needs the mutex for its wait to
return. -/
inductive Place
  | absent
  | producing
  | emplacing (line : Bytes)
  | notifying
  | leaving
  | consuming
  | testing
  | waiting
  | woken
  | taking
  | writing (line : Bytes)
  deriving DecidableEq

def Place.holds : Place → Bool
  | .emplacing _ | .notifying | .leaving | .testing | .taking => true
  | _ => false

structure Logger where
  owner : Option Thread
  cachedLogs : List Bytes
  places : Thread → Place
  index : Nat → Nat
  logFile : Bytes

/-- A notification names the consumer that it wakes, if one waits; `wake` is a spurious
wakeup. Of the bytes of a line, `write` writes `count`. -/
inductive Label
  | lockProducer (id : Nat)
  | emplace (id : Nat)
  | notify (id : Nat) (woken : Option Nat)
  | unlock (id : Nat)
  | lockConsumer (id : Nat)
  | test (id : Nat)
  | wake (id : Nat)
  | relock (id : Nat)
  | take (id : Nat)
  | write (id : Nat) (count : Nat)
  deriving DecidableEq

namespace Logger

def create (program : Program) : Logger where
  owner := none
  cachedLogs := []
  places
    | .producer id => if id < program.producers then .producing else .absent
    | .consumer id => if id < program.consumers then .consuming else .absent
  index _ := 0
  logFile := []

variable (logger : Logger)

def move (thread : Thread) (place : Place) : Logger :=
  { logger with places := Function.update logger.places thread place }

def setOwner (owner : Option Thread) : Logger := { logger with owner := owner }

def setLogs (cachedLogs : List Bytes) : Logger := { logger with cachedLogs := cachedLogs }

def isWaiting (id : Nat) : Bool := logger.places (.consumer id) = .waiting

/-- `notify_one`: any waiting consumer may be the one that is woken. -/
def notifyOne (program : Program) : Option Nat → Option Logger
  | none => if (List.range program.consumers).any logger.isWaiting then none else some logger
  | some id => if logger.isWaiting id then some (logger.move (.consumer id) .woken) else none

/-- `write_log_tofile`, where `fwrite` writes `count` bytes. -/
def writeLogToFile (line : Bytes) (count : Nat) : Logger :=
  { logger with logFile := logger.logFile ++ line.take count }

/-- There is no step from `front` on an empty list. -/
def step (program : Program) (logger : Logger) : Label → Option Logger
  | .lockProducer id =>
      match logger.places (.producer id), logger.owner with
      | .producing, none =>
          let index := logger.index id + 1
          some (({ logger with index := Function.update logger.index id index }.setOwner
            (some (.producer id))).move (.producer id)
              (.emplacing (logText index (program.threadID id))))
      | _, _ => none
  | .emplace id =>
      match logger.places (.producer id) with
      | .emplacing line =>
          some ((logger.setLogs (logger.cachedLogs ++ [line])).move (.producer id) .notifying)
      | _ => none
  | .notify id woken =>
      match logger.places (.producer id) with
      | .notifying => (logger.notifyOne program woken).map (·.move (.producer id) .leaving)
      | _ => none
  | .unlock id =>
      match logger.places (.producer id) with
      | .leaving => some ((logger.setOwner none).move (.producer id) .producing)
      | _ => none
  | .lockConsumer id =>
      match logger.places (.consumer id), logger.owner with
      | .consuming, none =>
          some ((logger.setOwner (some (.consumer id))).move (.consumer id) .testing)
      | _, _ => none
  | .test id =>
      match logger.places (.consumer id) with
      | .testing =>
          if logger.cachedLogs.isEmpty then
            some ((logger.setOwner none).move (.consumer id) .waiting)
          else some (logger.move (.consumer id) .taking)
      | _ => none
  | .wake id =>
      if logger.isWaiting id then some (logger.move (.consumer id) .woken) else none
  | .relock id =>
      match logger.places (.consumer id), logger.owner with
      | .woken, none =>
          some ((logger.setOwner (some (.consumer id))).move (.consumer id) .taking)
      | _, _ => none
  | .take id =>
      match logger.places (.consumer id), logger.cachedLogs with
      | .taking, line :: cachedLogs =>
          some (((logger.setLogs cachedLogs).setOwner none).move (.consumer id) (.writing line))
      | _, _ => none
  | .write id count =>
      match logger.places (.consumer id) with
      | .writing line =>
          if line.isEmpty then some (logger.move (.consumer id) .consuming)
          else some ((logger.writeLogToFile line count).move (.consumer id) .consuming)
      | _ => none

/-- No consumer is about to call `front` on an empty list. -/
def FrontDefined : Prop :=
  ∀ id, logger.places (.consumer id) = .taking → logger.cachedLogs ≠ []

def ReturnsFilled : Label → Prop
  | .relock _ => logger.cachedLogs ≠ []
  | _ => True

instance (label : Label) : Decidable (logger.ReturnsFilled label) := by
  unfold ReturnsFilled
  split <;> infer_instance

/-! ## What a step does -/

inductive Taken (program : Program) (logger : Logger) : Label → Logger → Prop
  | lockProducer {id : Nat} {line : Bytes} {index : Nat → Nat}
      (place : logger.places (.producer id) = .producing) (free : logger.owner = none) :
      Taken program logger (.lockProducer id)
        (({ logger with index := index }.setOwner (some (.producer id))).move (.producer id)
          (.emplacing line))
  | emplace {id : Nat} {line : Bytes} (place : logger.places (.producer id) = .emplacing line) :
      Taken program logger (.emplace id)
        ((logger.setLogs (logger.cachedLogs ++ [line])).move (.producer id) .notifying)
  | notifyNone {id : Nat} (place : logger.places (.producer id) = .notifying) :
      Taken program logger (.notify id none) (logger.move (.producer id) .leaving)
  | notifyOne {id woken : Nat} (place : logger.places (.producer id) = .notifying)
      (waits : logger.places (.consumer woken) = .waiting) :
      Taken program logger (.notify id (some woken))
        ((logger.move (.consumer woken) .woken).move (.producer id) .leaving)
  | unlock {id : Nat} (place : logger.places (.producer id) = .leaving) :
      Taken program logger (.unlock id) ((logger.setOwner none).move (.producer id) .producing)
  | lockConsumer {id : Nat} (place : logger.places (.consumer id) = .consuming)
      (free : logger.owner = none) :
      Taken program logger (.lockConsumer id)
        ((logger.setOwner (some (.consumer id))).move (.consumer id) .testing)
  | testEmpty {id : Nat} (place : logger.places (.consumer id) = .testing) :
      Taken program logger (.test id) ((logger.setOwner none).move (.consumer id) .waiting)
  | testFilled {id : Nat} (place : logger.places (.consumer id) = .testing)
      (filled : logger.cachedLogs ≠ []) :
      Taken program logger (.test id) (logger.move (.consumer id) .taking)
  | wake {id : Nat} (place : logger.places (.consumer id) = .waiting) :
      Taken program logger (.wake id) (logger.move (.consumer id) .woken)
  | relock {id : Nat} (place : logger.places (.consumer id) = .woken)
      (free : logger.owner = none) :
      Taken program logger (.relock id)
        ((logger.setOwner (some (.consumer id))).move (.consumer id) .taking)
  | take {id : Nat} {line : Bytes} {cachedLogs : List Bytes}
      (place : logger.places (.consumer id) = .taking)
      (found : logger.cachedLogs = line :: cachedLogs) :
      Taken program logger (.take id)
        (((logger.setLogs cachedLogs).setOwner none).move (.consumer id) (.writing line))
  | write {id count : Nat} {line logFile : Bytes}
      (place : logger.places (.consumer id) = .writing line) :
      Taken program logger (.write id count)
        ({ logger with logFile := logFile }.move (.consumer id) .consuming)

end Logger

open Logger

variable {program : Program} {logger next : Logger} {label : Label}

namespace Logger

theorem isWaiting_iff {id : Nat} :
    logger.isWaiting id = true ↔ logger.places (.consumer id) = .waiting := by
  rw [isWaiting, decide_eq_true_iff]

theorem taken_of_step (step : logger.step program label = some next) :
    Taken program logger label next := by
  cases label with
  | lockProducer id =>
      simp only [Logger.step] at step
      split at step
      · next place free =>
        cases step
        exact .lockProducer place free
      · cases step
  | emplace id =>
      simp only [Logger.step] at step
      split at step
      · next line place =>
        cases step
        exact .emplace place
      · cases step
  | notify id woken =>
      simp only [Logger.step] at step
      split at step
      · next place =>
        rcases Option.map_eq_some_iff.mp step with ⟨middle, wakes, rfl⟩
        cases woken with
        | none =>
            simp only [notifyOne] at wakes
            split at wakes
            · cases wakes
            · cases wakes
              exact .notifyNone place
        | some other =>
            simp only [notifyOne] at wakes
            split at wakes
            · next waits =>
              cases wakes
              exact .notifyOne place (isWaiting_iff.mp waits)
            · cases wakes
      · cases step
  | unlock id =>
      simp only [Logger.step] at step
      split at step
      · next place =>
        cases step
        exact .unlock place
      · cases step
  | lockConsumer id =>
      simp only [Logger.step] at step
      split at step
      · next place free =>
        cases step
        exact .lockConsumer place free
      · cases step
  | test id =>
      simp only [Logger.step] at step
      split at step
      · next place =>
        split at step
        · cases step
          exact .testEmpty place
        · next filled =>
          cases step
          exact .testFilled place (fun empty => filled (by rw [empty]; rfl))
      · cases step
  | wake id =>
      simp only [Logger.step] at step
      split at step
      · next waits =>
        cases step
        exact .wake (isWaiting_iff.mp waits)
      · cases step
  | relock id =>
      simp only [Logger.step] at step
      split at step
      · next place free =>
        cases step
        exact .relock place free
      · cases step
  | take id =>
      simp only [Logger.step] at step
      split at step
      · next place found =>
        cases step
        exact .take place found
      · cases step
  | write id count =>
      simp only [Logger.step] at step
      split at step
      · next place =>
        split at step
        · cases step
          exact .write place
        · cases step
          exact .write place
      · cases step

/-! ## The mutex and the list -/

/-- The mutex excludes, and a consumer in front of `front` has a line there. -/
structure Sound (logger : Logger) : Prop where
  exclusive : Threads.Exclusive Place.holds logger.owner logger.places
  frontDefined : logger.FrontDefined

theorem create_place (program : Program) (thread : Thread) :
    (create program).places thread = .absent ∨ (create program).places thread = .producing ∨
      (create program).places thread = .consuming := by
  cases thread with
  | producer id =>
      simp only [create]
      split
      · exact .inr (.inl rfl)
      · exact .inl rfl
  | consumer id =>
      simp only [create]
      split
      · exact .inr (.inr rfl)
      · exact .inl rfl

theorem create_sound (program : Program) : (create program).Sound where
  exclusive := by
    apply Threads.Exclusive.initial
    intro thread
    rcases create_place program thread with place | place | place <;> rw [place] <;> rfl
  frontDefined id takes := by
    rcases create_place program (.consumer id) with place | place | place <;>
      rw [place] at takes <;> cases takes

theorem Sound.not_taking (sound : logger.Sound) {thread : Thread}
    (mine : logger.owner = none ∨ (logger.places thread).holds = true) {id : Nat}
    (other : .consumer id ≠ thread) : logger.places (.consumer id) ≠ .taking := by
  intro takes
  have held : (logger.places (.consumer id)).holds = true := by rw [takes]; rfl
  rcases mine with free | mine
  · have owned := sound.exclusive _ held
    rw [free] at owned
    cases owned
  · exact other (sound.exclusive.unique held mine)

theorem Sound.frontDefined_move (sound : logger.Sound) {thread : Thread} {place : Place}
    {owner : Option Thread} {cachedLogs : List Bytes} {index : Nat → Nat} {logFile : Bytes}
    (mine : cachedLogs = logger.cachedLogs ∨ (logger.places thread).holds = true)
    (filled : place = .taking → cachedLogs ≠ []) :
    (({ logger with
      owner := owner, cachedLogs := cachedLogs, index := index
      logFile := logFile } : Logger).move thread place).FrontDefined := by
  intro id takes
  simp only [move] at takes ⊢
  by_cases same : .consumer id = thread
  · rw [same, Function.update_self] at takes
    exact filled takes
  · rw [Function.update_of_ne same] at takes
    rcases mine with unchanged | held
    · rw [unchanged]
      exact sound.frontDefined id takes
    · exact absurd takes (sound.not_taking (.inr held) same)

theorem Sound.step (sound : logger.Sound) (taken : logger.step program label = some next)
    (returns : logger.ReturnsFilled label) : next.Sound := by
  have free : ∀ {owner : Option Thread}, logger.owner = owner →
      Threads.Exclusive Place.holds owner logger.places := by
    intro owner same
    rw [← same]
    exact sound.exclusive
  have held : ∀ {thread : Thread} {place : Place}, logger.places thread = place →
      place.holds = true → (logger.places thread).holds = true := by
    intro thread place same holds
    rwa [same]
  cases taken_of_step taken with
  | lockProducer place unowned =>
      exact ⟨(free unowned).acquire, sound.frontDefined_move (.inl rfl) (fun same => by cases same)⟩
  | emplace place =>
      have mine := held place rfl
      exact ⟨sound.exclusive.keep mine,
        sound.frontDefined_move (.inr mine) (fun same => by cases same)⟩
  | notifyNone place =>
      have mine := held place rfl
      exact ⟨sound.exclusive.keep mine,
        sound.frontDefined_move (.inl rfl) (fun same => by cases same)⟩
  | @notifyOne id woken place waits =>
      have middle : (logger.move (.consumer woken) .woken).Sound :=
        ⟨sound.exclusive.outside rfl,
          sound.frontDefined_move (.inl rfl) (fun same => by cases same)⟩
      have mine : ((logger.move (.consumer woken) .woken).places (.producer id)).holds = true := by
        simp only [move]
        rw [Function.update_of_ne (by simp), place]
        rfl
      exact ⟨middle.exclusive.keep mine,
        middle.frontDefined_move (.inl rfl) (fun same => by cases same)⟩
  | unlock place =>
      have mine := held place rfl
      exact ⟨sound.exclusive.release mine rfl,
        sound.frontDefined_move (.inl rfl) (fun same => by cases same)⟩
  | lockConsumer place unowned =>
      exact ⟨(free unowned).acquire, sound.frontDefined_move (.inl rfl) (fun same => by cases same)⟩
  | testEmpty place =>
      have mine := held place rfl
      exact ⟨sound.exclusive.release mine rfl,
        sound.frontDefined_move (.inl rfl) (fun same => by cases same)⟩
  | testFilled place filled =>
      have mine := held place rfl
      exact ⟨sound.exclusive.keep mine, sound.frontDefined_move (.inl rfl) (fun _ => filled)⟩
  | wake place =>
      exact ⟨sound.exclusive.outside rfl,
        sound.frontDefined_move (.inl rfl) (fun same => by cases same)⟩
  | relock place unowned =>
      exact ⟨(free unowned).acquire, sound.frontDefined_move (.inl rfl) (fun _ => returns)⟩
  | take place found =>
      have mine := held place rfl
      exact ⟨sound.exclusive.release mine rfl,
        sound.frontDefined_move (.inr mine) (fun same => by cases same)⟩
  | write place =>
      exact ⟨sound.exclusive.outside rfl,
        sound.frontDefined_move (.inl rfl) (fun same => by cases same)⟩

end Logger

open Machine in
/-- In a run no consumer comes to `front` with an empty list exactly if each wait that returns
finds a line in the list. -/
theorem front_defined_iff {program : Program} {labels : List Label} {last : Logger}
    (run : runPartial (Logger.step program) (create program) labels = some last) :
    RunHolds (Logger.step program) FrontDefined (create program) labels ↔
      RunPermits (Logger.step program) ReturnsFilled (create program) labels := by
  have kept : ∀ (logger : Logger) label next, logger.Sound →
      logger.step program label = some next → logger.ReturnsFilled label →
      next.Sound ∧ next.FrontDefined := by
    intro logger label next sound taken returns
    have after := sound.step taken returns
    exact ⟨after, after.frontDefined⟩
  have necessary : ∀ (logger : Logger) label next, logger.Sound →
      logger.step program label = some next → next.FrontDefined →
      logger.ReturnsFilled label := by
    intro logger label next _ taken defined
    cases taken_of_step taken with
    | relock place free => exact defined _ (Function.update_self _ _ _)
    | _ => exact trivial
  exact runHolds_iff_of_run kept necessary (create_sound program)
    (create_sound program).frontDefined run

/-- A consumer waits and takes the line for which it is woken. -/
theorem front_defined_iff_waiting : ∃ last,
    Machine.runPartial (Logger.step ⟨1, 1, fun _ => ascii "7"⟩)
      (create ⟨1, 1, fun _ => ascii "7"⟩)
      [.lockConsumer 0, .test 0, .lockProducer 0, .emplace 0, .notify 0 (some 0), .unlock 0,
        .relock 0, .take 0, .write 0 100] = some last ∧
      last.FrontDefined := by
  have checked := Machine.runPermits_of_checked_run
    (show (Machine.runPartial (fun logger label =>
      if logger.ReturnsFilled label then
        Logger.step ⟨1, 1, fun _ => ascii "7"⟩ logger label else none)
      (create ⟨1, 1, fun _ => ascii "7"⟩)
      [.lockConsumer 0, .test 0, .lockProducer 0, .emplace 0, .notify 0 (some 0), .unlock 0,
        .relock 0, .take 0, .write 0 100]).isSome = true by decide)
  rcases Option.isSome_iff_exists.mp checked.1 with ⟨last, run⟩
  exact ⟨last, run, Machine.last_of_runHolds ((front_defined_iff run).mpr checked.2) run⟩

/-- The line for which the first consumer is woken is taken by the second one. -/
theorem woken_consumer_finds_empty_list :
    ¬ ∀ program labels last,
      Machine.runPartial (Logger.step program) (create program) labels = some last →
        last.FrontDefined := by
  intro defined
  have facts : (Machine.runPartial (Logger.step ⟨1, 2, fun _ => ascii "7"⟩)
      (create ⟨1, 2, fun _ => ascii "7"⟩)
      [.lockConsumer 0, .test 0, .lockProducer 0, .emplace 0, .notify 0 (some 0), .unlock 0,
        .lockConsumer 1, .test 1, .take 1, .relock 0]).map
      (fun last => (last.places (.consumer 0), last.cachedLogs)) = some (.taking, []) := by decide
  rcases Option.map_eq_some_iff.mp facts with ⟨last, run, reached⟩
  simp only [Prod.mk.injEq] at reached
  exact defined _ _ last run 0 reached.1 reached.2

/-! ## One consumer -/

def Logger.NotSpurious (_ : Logger) : Label → Prop
  | .wake _ => False
  | _ => True

namespace Logger

/-- There is one consumer, and it is woken for a line that nobody else takes. -/
structure Lone (logger : Logger) : Prop where
  sound : logger.Sound
  notifying : ∀ id, logger.places (.producer id) = .notifying → logger.cachedLogs ≠ []
  woken : ∀ id, logger.places (.consumer id) = .woken → logger.cachedLogs ≠ []
  lone : ∀ id, 0 < id → logger.places (.consumer id) = .absent

theorem create_lone (few : program.consumers ≤ 1) : (create program).Lone where
  sound := create_sound program
  notifying id notifies := by
    rcases create_place program (.producer id) with place | place | place <;>
      rw [place] at notifies <;> cases notifies
  woken id isWoken := by
    rcases create_place program (.consumer id) with place | place | place <;>
      rw [place] at isWoken <;> cases isWoken
  lone id positive := if_neg (by omega)

theorem Lone.only (lone : logger.Lone) {id : Nat}
    (present : logger.places (.consumer id) ≠ .absent) : id = 0 := by
  by_contra other
  exact present (lone.lone id (Nat.pos_of_ne_zero other))

theorem Lone.returnsFilled (lone : logger.Lone) (taken : Taken program logger label next) :
    logger.ReturnsFilled label := by
  cases taken with
  | relock place free => exact lone.woken _ place
  | _ => exact trivial

theorem Lone.move (lone : logger.Lone) {thread : Thread} {place : Place} {owner : Option Thread}
    {cachedLogs : List Bytes} {index : Nat → Nat} {logFile : Bytes}
    (grown : logger.cachedLogs ≠ [] → cachedLogs ≠ [])
    (filled : place = .notifying ∨ place = .woken → cachedLogs ≠ [])
    (present : logger.places thread ≠ .absent)
    (sound : (({ logger with
      owner := owner, cachedLogs := cachedLogs, index := index
      logFile := logFile } : Logger).move thread place).Sound) :
    (({ logger with
      owner := owner, cachedLogs := cachedLogs, index := index
      logFile := logFile } : Logger).move thread place).Lone where
  sound := sound
  notifying id notifies := by
    simp only [Logger.move] at notifies ⊢
    by_cases same : .producer id = thread
    · rw [same, Function.update_self] at notifies
      exact filled (.inl notifies)
    · rw [Function.update_of_ne same] at notifies
      exact grown (lone.notifying id notifies)
  woken id isWoken := by
    simp only [Logger.move] at isWoken ⊢
    by_cases same : .consumer id = thread
    · rw [same, Function.update_self] at isWoken
      exact filled (.inr isWoken)
    · rw [Function.update_of_ne same] at isWoken
      exact grown (lone.woken id isWoken)
  lone id positive := by
    simp only [Logger.move]
    have absent := lone.lone id positive
    rw [Function.update_of_ne, absent]
    rintro rfl
    exact present absent

theorem Lone.step (lone : logger.Lone) (step : logger.step program label = some next)
    (genuine : logger.NotSpurious label) : next.Lone := by
  have taken := taken_of_step step
  have sound := lone.sound.step step (lone.returnsFilled taken)
  have present : ∀ {thread : Thread} {place : Place}, logger.places thread = place →
      place ≠ .absent → logger.places thread ≠ .absent := by
    intro thread place same other
    rwa [same]
  cases taken with
  | lockProducer place free =>
      exact lone.move (fun filled => filled) (by simp) (present place (by simp)) sound
  | emplace place =>
      exact lone.move (fun _ => by simp) (fun _ => by simp) (present place (by simp)) sound
  | notifyNone place =>
      exact lone.move (fun filled => filled) (by simp) (present place (by simp)) sound
  | @notifyOne id woken place waits =>
      have filled := lone.notifying id place
      have middle : (logger.move (.consumer woken) .woken).Lone :=
        lone.move (fun filled => filled) (fun _ => filled) (present waits (by simp))
          ⟨lone.sound.exclusive.outside rfl,
            lone.sound.frontDefined_move (.inl rfl) (fun same => by cases same)⟩
      have there : (logger.move (.consumer woken) .woken).places (.producer id) ≠ .absent := by
        simp only [Logger.move]
        rw [Function.update_of_ne (by simp), place]
        simp
      exact middle.move (fun filled => filled) (by simp) there sound
  | unlock place =>
      exact lone.move (fun filled => filled) (by simp) (present place (by simp)) sound
  | lockConsumer place free =>
      exact lone.move (fun filled => filled) (by simp) (present place (by simp)) sound
  | testEmpty place =>
      exact lone.move (fun filled => filled) (by simp) (present place (by simp)) sound
  | testFilled place filled =>
      exact lone.move (fun filled => filled) (by simp) (present place (by simp)) sound
  | wake place => cases genuine
  | relock place free =>
      exact lone.move (fun filled => filled) (by simp) (present place (by simp)) sound
  | @take id line cachedLogs place found =>
      -- While the one consumer takes, nobody notifies and nobody is woken.
      have mine : (logger.places (.consumer id)).holds = true := by rw [place]; rfl
      have first := lone.only (present place (by simp))
      refine ⟨sound, ?_, ?_, ?_⟩
      · intro producer notifies
        simp only [Logger.move] at notifies
        rw [Function.update_of_ne (by simp)] at notifies
        have held : (logger.places (.producer producer)).holds = true := by
          change logger.places (.producer producer) = .notifying at notifies
          rw [notifies]
          rfl
        cases lone.sound.exclusive.unique held mine
      · intro other isWoken
        simp only [Logger.move] at isWoken
        by_cases same : other = id
        · rw [same, Function.update_self] at isWoken
          cases isWoken
        · rw [Function.update_of_ne (by simpa using same)] at isWoken
          have second := lone.only (present isWoken (by simp))
          exact absurd (second.trans first.symm) same
      · intro other positive
        simp only [Logger.move]
        rw [Function.update_of_ne]
        · exact lone.lone other positive
        · simp only [ne_eq, Thread.consumer.injEq]
          omega
  | write place =>
      exact lone.move (fun filled => filled) (by simp) (present place (by simp)) sound

end Logger

/-- With one consumer the test before the wait is enough, unless a wakeup is spurious. -/
theorem lone_consumer_front_defined (few : program.consumers ≤ 1) {labels : List Label}
    (run : ((Machine.ofPartial (Logger.step program)).restrict NotSpurious).Transitions
      (create program) labels logger) : logger.FrontDefined := by
  have lone : logger.Lone :=
    run.invariant (fun _ _ _ lone taken => lone.step taken.1 taken.2) (create_lone few)
  exact lone.sound.frontDefined

end MyBookSources.AsyncLogger
