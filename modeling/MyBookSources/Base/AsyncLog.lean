import MyBookSources.Foundation.Bytes
import MyBookSources.Foundation.WaitLoop

/-! # The asynchronous log

`CAsyncLog`: threads format lines and queue them, and one write thread takes them from the
queue and writes them. Lines of the levels `FATAL` and `SYSERROR` are written by the
calling thread itself.
-/

namespace MyBookSources.Base

inductive LOG_LEVEL
  | TRACE
  | DEBUG
  | INFO
  | WARNING
  | ERROR
  | SYSERROR
  | FATAL
  | CRITICAL
  deriving DecidableEq

def LOG_LEVEL.value : LOG_LEVEL → Int
  | .TRACE => 0
  | .DEBUG => 1
  | .INFO => 2
  | .WARNING => 3
  | .ERROR => 4
  | .SYSERROR => 5
  | .FATAL => 6
  | .CRITICAL => 7

namespace CAsyncLog

def MAX_LINE_LENGTH : Nat := 256

structure Settings where
  strFileName : Bytes
  strFileNamePID : Bytes
  truncateLongLog : Bool
  fileRollSize : Int

/-- A call of `Output` with the clock and the thread it finds. `logMsg` is what the format
and its arguments spell; its length, with the final zero, is an `int`. -/
structure OutputCall where
  nLevel : Int
  signature : Option (Bytes × Int)
  szTime : Bytes
  threadId : Int
  logMsg : Bytes
  short : logMsg.length + 1 < 2 ^ 31

/-- A number as `%d` prints it. -/
def decimal (value : Int) : Bytes := ascii (toString value)

def levelPrefix (nLevel : Int) : Bytes :=
  if nLevel = LOG_LEVEL.TRACE.value then ascii "[TRACE]"
  else if nLevel = LOG_LEVEL.DEBUG.value then ascii "[DEBUG]"
  else if nLevel = LOG_LEVEL.WARNING.value then ascii "[WARN]"
  else if nLevel = LOG_LEVEL.ERROR.value then ascii "[ERROR]"
  else if nLevel = LOG_LEVEL.SYSERROR.value then ascii "[SYSE]"
  else if nLevel = LOG_LEVEL.FATAL.value then ascii "[FATAL]"
  else if nLevel = LOG_LEVEL.CRITICAL.value then ascii "[CRITICAL]"
  else ascii "[INFO]"

/-- The time and the thread go through buffers of 64 and 32 bytes. -/
def MakeLinePrefix (nLevel : Int) (szTime : Bytes) (threadId : Int) : Bytes :=
  levelPrefix nLevel ++ ascii "[" ++ szTime.take 63 ++ ascii "]" ++
    (ascii "[" ++ decimal threadId ++ ascii "]").take 31

/-- The overload without a file name has no signature; the other prints it into a buffer of
512 bytes. -/
def signaturePrefix : Option (Bytes × Int) → Bytes
  | none => []
  | some (fileName, lineNo) =>
      (ascii "[" ++ fileName ++ ascii ":" ++ decimal lineNo ++ ascii "]").take 511

/-- The line that `Output` makes of a call. -/
def OutputCall.line (call : OutputCall) (settings : Settings) : Bytes :=
  MakeLinePrefix call.nLevel call.szTime call.threadId ++ signaturePrefix call.signature ++
    (if settings.truncateLongLog then call.logMsg.take MAX_LINE_LENGTH else call.logMsg) ++
    (if settings.strFileName.isEmpty then [] else ascii "\n")

inductive OutputEffect
  | refused
  | queued (line : Bytes)
  | written (line : Bytes)
  deriving DecidableEq

/-- `currentLevel` is what the call finds in `m_nCurrentLevel`. -/
def Output (settings : Settings) (currentLevel : Int) (call : OutputCall) : OutputEffect :=
  if call.nLevel ≠ LOG_LEVEL.CRITICAL.value ∧ call.nLevel < currentLevel then .refused
  else if call.nLevel ≠ LOG_LEVEL.FATAL.value ∧ call.nLevel ≠ LOG_LEVEL.SYSERROR.value then
    .queued (call.line settings)
  else .written (call.line settings)

/-- A line on its way to the write thread, with the call that queued it. -/
structure LogLine (settings : Settings) where
  text : Bytes
  call : OutputCall
  currentLevel : Int
  queued : Output settings currentLevel call = .queued text

/-- The loop of `WriteThreadProc` with `Output` as producer and `Uninit` as stop call. A line
is handled where the thread passes it to `WriteToFile`; the thread leaves if that fails or
if a new file cannot be made. -/
def waitLoop : WaitLoop where
  stopWakesAll := false
  notifiesLocked := true
  retests := false
  worksLocked := false
  leavesOnFailure := true

/-- Every interleaving of the threads that log, of the write thread and of `Uninit`. -/
abbrev logMachine (settings : Settings) :=
  waitLoop.machine (LogLine settings)

variable {settings : Settings}

/-- The lines that were passed to `WriteToFile`, which is not called without a file name. -/
def linesToFile (log : WaitLoop.WorkerSystem (LogLine settings)) : List Bytes :=
  if settings.strFileName.isEmpty then [] else log.handled.map LogLine.text

def linesPushed (log : WaitLoop.WorkerSystem (LogLine settings)) : List Bytes :=
  log.pushed.map LogLine.text

/-- What is written is at every moment a prefix of what was pushed; the thread leaves at
its test of `m_bExit` only with an empty list, and all that was pushed is then handled. -/
theorem written_lines_in_order {labels : List (WaitLoop.Label (LogLine settings))}
    {log : WaitLoop.WorkerSystem (LogLine settings)}
    (transitions : (logMachine settings).Transitions (.create 1) labels log) :
    linesToFile log <+: linesPushed log ∧
      ∀ worker next, waitLoop.step log (.decide worker) = some next →
        next.workers worker = .finished →
        log.queue = [] ∧ log.handled = log.pushed ∧
          (settings.strFileName ≠ [] → linesToFile log = linesPushed log) := by
  rcases WaitLoop.WorkerSystem.handled_in_order transitions with ⟨inOrder, leaves⟩
  constructor
  · rw [linesToFile, linesPushed]
    split
    · exact List.nil_prefix
    · exact inOrder.map LogLine.text
  · intro worker next taken finished
    rcases leaves worker next taken finished with ⟨empty, all⟩
    refine ⟨empty, all, ?_⟩
    intro named
    rw [linesToFile, linesPushed]
    rw [if_neg (by simpa using named), all]

def sampleSettings : Settings := ⟨ascii "log", ascii "00001", false, 10⟩

def sampleCall : OutputCall := ⟨LOG_LEVEL.INFO.value, none, ascii "t", 1, ascii "a", by decide⟩

def sampleLine : LogLine sampleSettings :=
  ⟨sampleCall.line sampleSettings, sampleCall, 0, rfl⟩

/-- A line is queued while the write thread waits, and written. -/
theorem written_lines_in_order_one : ∃ log : WaitLoop.WorkerSystem (LogLine sampleSettings),
    log.handled.length = 1 ∧ linesToFile log <+: linesPushed log := by
  have facts : (Machine.runPartial waitLoop.step
      (.create 1 : WaitLoop.WorkerSystem (LogLine sampleSettings))
      [.lock 0, .test 0, .decide 0, .wait 0, .begin 3 sampleLine, .push 3, .notify 3 (some 0),
        .release 3, .relock 0, .test 0, .take 0, .work 0]).map
      (fun log => log.handled.length) = some 1 := by rfl
  rcases Option.map_eq_some_iff.mp facts with ⟨log, ran, handled⟩
  apply Exists.intro log
  constructor
  · exact handled
  · exact (written_lines_in_order (Machine.transitions_of_runPartial ran)).1

end CAsyncLog

end MyBookSources.Base
