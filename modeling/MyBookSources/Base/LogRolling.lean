import MyBookSources.Base.AsyncLog

/-! # Rolling of the log files

The write thread opens a log file named after the clock before its first line, and a new
one whenever the lines written since then reach the roll size.
-/

namespace MyBookSources.Base

/-! ## Files on disk -/

/-- Names and contents of the log files, in the order of their creation. -/
abbrev LogFiles := List (Bytes × Bytes)

namespace LogFiles

def names (files : LogFiles) : List Bytes := files.map Prod.fst

def contents (files : LogFiles) : Bytes := (files.map Prod.snd).flatten

/-- `fopen` in mode `w+`: a file of that name is emptied, otherwise a new one is made. -/
def openEmpty (name : Bytes) : LogFiles → LogFiles
  | [] => [(name, [])]
  | (other, content) :: rest =>
      if other = name then (other, []) :: rest else (other, content) :: openEmpty name rest

/-- `fwrite` at the end of the open file. -/
def append (name data : Bytes) : LogFiles → LogFiles
  | [] => []
  | (other, content) :: rest =>
      if other = name then (other, content ++ data) :: rest
      else (other, content) :: append name data rest

@[simp] theorem contents_nil : contents [] = [] := rfl

@[simp] theorem contents_cons (file : Bytes × Bytes) (files : LogFiles) :
    contents (file :: files) = file.2 ++ contents files := rfl

theorem contents_append (left right : LogFiles) :
    contents (left ++ right) = contents left ++ contents right := by
  simp [contents]

theorem openEmpty_of_new {name : Bytes} {files : LogFiles} (new : name ∉ files.names) :
    openEmpty name files = files ++ [(name, [])] := by
  induction files with
  | nil => rfl
  | cons file rest induction =>
      rcases file with ⟨other, content⟩
      simp only [names, List.map_cons, List.mem_cons, not_or] at new
      rcases new with ⟨different, absent⟩
      simp only [openEmpty, List.cons_append]
      rw [if_neg (Ne.symm different), induction absent]

theorem length_openEmpty_le (name : Bytes) (files : LogFiles) :
    (openEmpty name files).contents.length ≤ files.contents.length := by
  induction files with
  | nil => exact Nat.le_refl _
  | cons file rest induction =>
      rcases file with ⟨other, content⟩
      simp only [openEmpty]
      split
      · simp
      · simp only [contents_cons, List.length_append]
        omega

theorem length_openEmpty_lt {name : Bytes} {files : LogFiles} (present : name ∈ files.names)
    (filled : ∀ file ∈ files, file.2 ≠ []) :
    (openEmpty name files).contents.length < files.contents.length := by
  induction files with
  | nil => cases present
  | cons file rest induction =>
      rcases file with ⟨other, content⟩
      simp only [openEmpty]
      split
      · have some_content : 0 < content.length :=
          List.length_pos_iff.mpr (filled (other, content) (by simp))
        simp only [contents_cons, List.length_append, List.nil_append]
        omega
      · next different =>
          simp only [names, List.map_cons, List.mem_cons] at present
          have further : name ∈ names rest := by
            rcases present with same | further
            · exact absurd same.symm different
            · exact further
          have shorter := induction further
            (fun file member => filled file (List.mem_cons_of_mem _ member))
          simp only [contents_cons, List.length_append]
          omega

theorem append_last {name content data : Bytes} {earlier : LogFiles}
    (new : name ∉ earlier.names) :
    append name data (earlier ++ [(name, content)]) = earlier ++ [(name, content ++ data)] := by
  induction earlier with
  | nil => simp [append]
  | cons file rest induction =>
      rcases file with ⟨other, otherContent⟩
      simp only [names, List.map_cons, List.mem_cons, not_or] at new
      rcases new with ⟨different, absent⟩
      simp only [append, List.cons_append]
      rw [if_neg (Ne.symm different), induction absent]

theorem length_append_le (name data : Bytes) (files : LogFiles) :
    (append name data files).contents.length ≤ files.contents.length + data.length := by
  induction files with
  | nil => exact Nat.zero_le _
  | cons file rest induction =>
      rcases file with ⟨other, content⟩
      simp only [append]
      split
      · simp only [contents_cons, List.length_append]
        omega
      · simp only [contents_cons, List.length_append]
        omega

end LogFiles

namespace CAsyncLog

/-! ## The write thread -/

/-- What the write thread works on: the files, the name of the open one, the size written
to it, and whether the thread has returned. -/
structure WriteThread where
  files : LogFiles
  hLogFile : Option Bytes
  nCurrentWrittenSize : Int
  returned : Bool
  deriving DecidableEq

/-- `stamp` spells a reading of the clock as `localtime` and `strftime` do. -/
def newFileName (settings : Settings) (stamp : Int → Bytes) (now : Int) : Bytes :=
  settings.strFileName ++ ascii "." ++ stamp now ++ ascii "." ++ settings.strFileNamePID ++
    ascii ".log"

def CreateNewFile (thread : WriteThread) (name : Bytes) : WriteThread :=
  { thread with files := thread.files.openEmpty name, hLogFile := some name }

/-- What goes to the file, and the result. `fwrite` takes all it is given; its count is read
as an `int`. -/
def WriteToFile (data : Bytes) : Bytes × Bool :=
  let ret := int32 data.length
  if 0 < ret then
    let rest := data.drop ret.toNat
    if rest.isEmpty then (data, true)
    else
      let (more, result) := WriteToFile rest
      (data ++ more, result)
  else (data, false)
  termination_by data.length
  decreasing_by
    have inData := int32_le data.length
    simp only [List.length_drop]
    omega

/-- The part of the loop in front of the queue: a new file, if one is due. -/
def rollFile (settings : Settings) (stamp : Int → Bytes) (now : Int) (thread : WriteThread) :
    WriteThread :=
  if settings.strFileName.isEmpty then thread
  else if thread.hLogFile = none ∨ settings.fileRollSize ≤ thread.nCurrentWrittenSize then
    CreateNewFile { thread with nCurrentWrittenSize := 0 } (newFileName settings stamp now)
  else thread

def writeLine (settings : Settings) (line : Bytes) (thread : WriteThread) : WriteThread :=
  if settings.strFileName.isEmpty then thread
  else
    let (data, result) := WriteToFile line
    let files := match thread.hLogFile with
      | some name => thread.files.append name data
      | none => thread.files
    if result then
      { thread with
        files := files
        nCurrentWrittenSize := signed 64 (thread.nCurrentWrittenSize + line.length) }
    else { thread with files := files, returned := true }

/-- `WriteThreadProc` up to its first look at the queue. -/
def startThread (settings : Settings) (stamp : Int → Bytes) (now : Int) : WriteThread :=
  rollFile settings stamp now ⟨[], none, 0, false⟩

/-- A line from the queue, and the clock as the loop finds it afterwards. -/
def WriteThread.step (settings : Settings) (stamp : Int → Bytes) (thread : WriteThread)
    (entry : LogLine settings × Int) : WriteThread :=
  if thread.returned then thread
  else
    let written := writeLine settings entry.1.text thread
    if written.returned then written else rollFile settings stamp entry.2 written

/-- The thread when it has been through all lines, or has returned before. -/
def writeLines (settings : Settings) (stamp : Int → Bytes) (thread : WriteThread)
    (entries : List (LogLine settings × Int)) : WriteThread :=
  entries.foldl (WriteThread.step settings stamp) thread

def allLines {settings : Settings} (entries : List (LogLine settings × Int)) : Bytes :=
  (entries.map fun entry => entry.1.text).flatten

/-! ## Lines that reach the file -/

variable {settings : Settings} {stamp : Int → Bytes} {thread : WriteThread}

theorem LogLine.text_eq (line : LogLine settings) : line.text = line.call.line settings := by
  have queued := line.queued
  rw [Output] at queued
  split at queued
  · cases queued
  · split at queued
    · exact (OutputEffect.queued.inj queued).symm
    · cases queued

theorem levelPrefix_length (nLevel : Int) :
    0 < (levelPrefix nLevel).length ∧ (levelPrefix nLevel).length ≤ 10 := by
  rw [levelPrefix]
  repeat' split
  all_goals decide

theorem MakeLinePrefix_length (nLevel : Int) (szTime : Bytes) (threadId : Int) :
    0 < (MakeLinePrefix nLevel szTime threadId).length ∧
      (MakeLinePrefix nLevel szTime threadId).length ≤ 106 := by
  rcases levelPrefix_length nLevel with ⟨positive, short⟩
  have bracket : (ascii "[").length = 1 ∧ (ascii "]").length = 1 := by decide
  simp only [MakeLinePrefix, List.length_append, List.length_take]
  omega

theorem signaturePrefix_length (signature : Option (Bytes × Int)) :
    (signaturePrefix signature).length ≤ 511 := by
  cases signature with
  | none => exact Nat.zero_le _
  | some place =>
      simp only [signaturePrefix, List.length_take]
      omega

theorem LogLine.text_length (line : LogLine settings) :
    0 < line.text.length ∧ line.text.length < 2 ^ 32 := by
  rcases MakeLinePrefix_length line.call.nLevel line.call.szTime line.call.threadId with
    ⟨positive, short⟩
  have signature := signaturePrefix_length line.call.signature
  have message := line.call.short
  have cut : (if settings.truncateLongLog then line.call.logMsg.take MAX_LINE_LENGTH
      else line.call.logMsg).length ≤ line.call.logMsg.length := by
    split
    · simp only [List.length_take]
      omega
    · exact Nat.le_refl _
  have ending : (if settings.strFileName.isEmpty then [] else ascii "\n").length ≤ 1 := by
    split <;> decide
  rw [line.text_eq]
  simp only [OutputCall.line, List.length_append]
  omega

/-- A line is written whole, but its count is negative from `2 ^ 31` bytes on. -/
theorem WriteToFile_eq (line : LogLine settings) :
    WriteToFile line.text = (line.text, decide (line.text.length < 2 ^ 31)) := by
  rcases line.text_length with ⟨positive, bounded⟩
  rw [WriteToFile]
  by_cases short : line.text.length < 2 ^ 31
  · have count := int32_of_lt short
    have whole : line.text.drop (int32 line.text.length).toNat = [] := by
      rw [count]
      exact List.drop_length
    rw [if_pos (by omega), whole, decide_eq_true short]
    rfl
  · have negative : int32 line.text.length < 0 := by
      unfold int32
      split <;> omega
    rw [if_neg (by omega), decide_eq_false short]

/-! ## What a line does to the files -/

/-- The lines so far are on disk. Only the open file, the last one, can be empty. -/
structure WriteThread.Tidy (settings : Settings) (thread : WriteThread) (lines : Bytes) :
    Prop where
  contents : thread.files.contents = lines
  current : settings.strFileName ≠ [] → ∃ (earlier : LogFiles) (name content : Bytes),
    thread.files = earlier ++ [(name, content)] ∧ thread.hLogFile = some name ∧
      name ∉ earlier.names ∧ ∀ file ∈ earlier, file.2 ≠ []

/-- The line reaches a file and does not make the thread open a name that is in use. -/
structure WriteThread.Permits (settings : Settings) (stamp : Int → Bytes)
    (thread : WriteThread) (entry : LogLine settings × Int) : Prop where
  named : settings.strFileName ≠ []
  running : thread.returned = false
  apart : entry.1.text.length < 2 ^ 31 →
    settings.fileRollSize ≤ signed 64 (thread.nCurrentWrittenSize + entry.1.text.length) →
    newFileName settings stamp entry.2 ∉ thread.files.names

def WriteThread.Behind (thread : WriteThread) (lines : Bytes) : Prop :=
  thread.files.contents.length < lines.length

theorem startThread_tidy (now : Int) : (startThread settings stamp now).Tidy settings [] := by
  rw [startThread, rollFile]
  by_cases named : settings.strFileName = []
  · rw [if_pos (by simpa using named)]
    exact ⟨rfl, fun other => absurd named other⟩
  · rw [if_neg (by simpa using named), if_pos (.inl rfl)]
    constructor
    · rfl
    · intro _
      exact ⟨[], _, [], rfl, rfl, by simp [LogFiles.names], by simp⟩

theorem files_rollFile_le (now : Int) :
    (rollFile settings stamp now thread).files.contents.length ≤
      thread.files.contents.length := by
  rw [rollFile]
  split
  · exact Nat.le_refl _
  · split
    · exact LogFiles.length_openEmpty_le _ _
    · exact Nat.le_refl _

theorem files_writeLine_le (line : LogLine settings) :
    (writeLine settings line.text thread).files.contents.length ≤
      thread.files.contents.length + line.text.length := by
  rw [writeLine]
  split
  · omega
  · have appended : (match thread.hLogFile with
        | some name => thread.files.append name line.text
        | none => thread.files).contents.length ≤
        thread.files.contents.length + line.text.length := by
      split
      · exact LogFiles.length_append_le _ _ _
      · omega
    rw [WriteToFile_eq]
    dsimp only
    split
    · exact appended
    · exact appended

theorem files_step_le (entry : LogLine settings × Int) :
    (thread.step settings stamp entry).files.contents.length ≤
      thread.files.contents.length + entry.1.text.length := by
  have written := @files_writeLine_le settings thread entry.1
  rw [WriteThread.step]
  split
  · omega
  · dsimp only
    split
    · exact written
    · exact Nat.le_trans (files_rollFile_le entry.2) written

theorem WriteThread.Behind.step {lines : Bytes} (behind : thread.Behind lines)
    (entry : LogLine settings × Int) :
    (thread.step settings stamp entry).Behind (lines ++ entry.1.text) := by
  have grown := @files_step_le settings stamp thread entry
  rw [Behind] at behind ⊢
  rw [List.length_append]
  omega

theorem writeLine_eq {earlier : LogFiles} {name content : Bytes}
    (named : settings.strFileName ≠ []) (files : thread.files = earlier ++ [(name, content)])
    (current : thread.hLogFile = some name) (new : name ∉ earlier.names)
    (line : LogLine settings) :
    (writeLine settings line.text thread).files = earlier ++ [(name, content ++ line.text)] ∧
      (writeLine settings line.text thread).hLogFile = some name ∧
      (line.text.length < 2 ^ 31 →
        (writeLine settings line.text thread).returned = thread.returned ∧
        (writeLine settings line.text thread).nCurrentWrittenSize =
          signed 64 (thread.nCurrentWrittenSize + line.text.length)) ∧
      (¬ line.text.length < 2 ^ 31 →
        (writeLine settings line.text thread).returned = true) := by
  have appended : LogFiles.append name line.text (earlier ++ [(name, content)]) =
      earlier ++ [(name, content ++ line.text)] := LogFiles.append_last new
  rw [writeLine]
  rw [if_neg (by simpa using named), WriteToFile_eq, current, files]
  dsimp only
  by_cases short : line.text.length < 2 ^ 31
  · rw [decide_eq_true short, if_pos rfl]
    exact ⟨appended, rfl, fun _ => ⟨rfl, rfl⟩, fun long => absurd short long⟩
  · rw [decide_eq_false short, if_neg Bool.false_ne_true]
    exact ⟨appended, rfl, fun other => absurd other short, fun _ => rfl⟩

theorem WriteThread.Tidy.written {lines : Bytes} (tidy : thread.Tidy settings lines)
    (named : settings.strFileName ≠ []) (line : LogLine settings) :
    ∃ (earlier : LogFiles) (name content : Bytes),
      (writeLine settings line.text thread).files = earlier ++ [(name, content)] ∧
      (writeLine settings line.text thread).hLogFile = some name ∧ name ∉ earlier.names ∧
      (∀ file ∈ earlier ++ [(name, content)], file.2 ≠ []) ∧
      LogFiles.names (earlier ++ [(name, content)]) = thread.files.names ∧
      LogFiles.contents (earlier ++ [(name, content)]) = lines ++ line.text := by
  rcases tidy.current named with ⟨earlier, name, content, files, current, new, filled⟩
  rcases writeLine_eq named files current new line with ⟨newFiles, newCurrent, _, _⟩
  refine ⟨earlier, name, content ++ line.text, newFiles, newCurrent, new, ?_, ?_, ?_⟩
  · intro file member
    rcases List.mem_append.mp member with inEarlier | last
    · exact filled file inEarlier
    · have positive := line.text_length.1
      rw [List.mem_singleton.mp last]
      apply List.ne_nil_of_length_pos
      simp only [List.length_append]
      omega
  · rw [files]
    simp [LogFiles.names]
  · rw [← tidy.contents, files]
    simp [LogFiles.contents_append]

theorem step_of_running (running : thread.returned = false) (entry : LogLine settings × Int) :
    thread.step settings stamp entry =
      if (writeLine settings entry.1.text thread).returned then
        writeLine settings entry.1.text thread
      else rollFile settings stamp entry.2 (writeLine settings entry.1.text thread) := by
  rw [WriteThread.step]
  rw [if_neg (by simp [running])]

/-- The open file is rolled exactly when its size has reached the limit. -/
theorem rollFile_eq (named : settings.strFileName ≠ []) {name : Bytes}
    (current : thread.hLogFile = some name) (now : Int) :
    rollFile settings stamp now thread =
      if settings.fileRollSize ≤ thread.nCurrentWrittenSize then
        CreateNewFile { thread with nCurrentWrittenSize := 0 } (newFileName settings stamp now)
      else thread := by
  rw [rollFile]
  rw [if_neg (by simpa using named)]
  by_cases due : settings.fileRollSize ≤ thread.nCurrentWrittenSize
  · rw [if_pos (.inr due), if_pos due]
  · rw [if_neg (by simp [current, due]), if_neg due]

theorem WriteThread.Tidy.step {lines : Bytes} (tidy : thread.Tidy settings lines)
    {entry : LogLine settings × Int} (permitted : thread.Permits settings stamp entry) :
    (thread.step settings stamp entry).Tidy settings (lines ++ entry.1.text) := by
  rcases permitted with ⟨named, running, apart⟩
  rcases tidy.written named entry.1 with
    ⟨earlier, name, content, files, current, new, filled, names, contents⟩
  have written : (writeLine settings entry.1.text thread).Tidy settings
      (lines ++ entry.1.text) := by
    constructor
    · rw [files, contents]
    · intro _
      exact ⟨earlier, name, content, files, current, new,
        fun file member => filled file (List.mem_append_left _ member)⟩
  rw [step_of_running running]
  split
  · exact written
  · next goesOn =>
      rw [rollFile_eq named current]
      split
      · next due =>
          rcases tidy.current named with ⟨_, _, _, oldFiles, oldCurrent, oldNew, _⟩
          rcases writeLine_eq named oldFiles oldCurrent oldNew entry.1 with ⟨_, _, count, fails⟩
          have short : entry.1.text.length < 2 ^ 31 := by
            by_contra long
            exact goesOn (fails long)
          rw [(count short).2] at due
          have fresh : newFileName settings stamp entry.2 ∉
              LogFiles.names (earlier ++ [(name, content)]) := by
            rw [names]
            exact apart short due
          simp only [CreateNewFile, files]
          rw [LogFiles.openEmpty_of_new fresh]
          constructor
          · rw [LogFiles.contents_append, contents]
            simp
          · intro _
            exact ⟨_, _, [], rfl, rfl, fresh, filled⟩
      · exact written

theorem WriteThread.Tidy.behind {lines : Bytes} (tidy : thread.Tidy settings lines)
    {entry : LogLine settings × Int} (refused : ¬ thread.Permits settings stamp entry) :
    (thread.step settings stamp entry).Behind (lines ++ entry.1.text) := by
  have unchanged : thread.Behind (lines ++ entry.1.text) := by
    have positive := entry.1.text_length.1
    rw [Behind]
    rw [tidy.contents, List.length_append]
    omega
  cases running : thread.returned with
  | true =>
      rw [WriteThread.step]
      rw [if_pos running]
      exact unchanged
  | false =>
      rw [step_of_running running]
      by_cases named : settings.strFileName = []
      · have noFile : writeLine settings entry.1.text thread = thread := by
          rw [writeLine]
          rw [if_pos (by simpa using named)]
        have noRoll : rollFile settings stamp entry.2 thread = thread := by
          rw [rollFile]
          rw [if_pos (by simpa using named)]
        rw [noFile, noRoll, ite_self]
        exact unchanged
      · rcases tidy.written named entry.1 with
          ⟨earlier, name, content, files, current, new, filled, names, contents⟩
        rcases tidy.current named with ⟨_, _, _, oldFiles, oldCurrent, oldNew, _⟩
        rcases writeLine_eq named oldFiles oldCurrent oldNew entry.1 with ⟨_, _, count, _⟩
        have taken : entry.1.text.length < 2 ^ 31 ∧
            settings.fileRollSize ≤
              signed 64 (thread.nCurrentWrittenSize + entry.1.text.length) ∧
            newFileName settings stamp entry.2 ∈ thread.files.names := by
          by_contra other
          apply refused
          refine ⟨named, running, ?_⟩
          intro short due present
          exact other ⟨short, due, present⟩
        rcases taken with ⟨short, due, present⟩
        rw [if_neg (by simp [(count short).1, running]), rollFile_eq named current,
          if_pos (by rw [(count short).2]; exact due)]
        rw [Behind]
        simp only [CreateNewFile, files]
        rw [← contents]
        exact LogFiles.length_openEmpty_lt (by rw [names]; exact present) filled

/-! ## Whole runs -/

/-- Every line of the run meets the condition in the state before it. -/
def WriteThread.PermitsAll (settings : Settings) (stamp : Int → Bytes) :
    WriteThread → List (LogLine settings × Int) → Prop
  | _, [] => True
  | thread, entry :: rest =>
      thread.Permits settings stamp entry ∧
        PermitsAll settings stamp (thread.step settings stamp entry) rest

theorem WriteThread.Behind.writeLines {lines : Bytes} (behind : thread.Behind lines)
    (entries : List (LogLine settings × Int)) :
    (writeLines settings stamp thread entries).Behind (lines ++ allLines entries) := by
  induction entries generalizing thread lines with
  | nil => simpa [CAsyncLog.writeLines, allLines] using behind
  | cons entry rest induction =>
      have next : (thread.step settings stamp entry).Behind (lines ++ entry.1.text) :=
        behind.step entry
      have rested := induction next
      rw [List.append_assoc] at rested
      exact rested

theorem WriteThread.Tidy.writeLines_iff {lines : Bytes} (tidy : thread.Tidy settings lines)
    (entries : List (LogLine settings × Int)) :
    (writeLines settings stamp thread entries).files.contents = lines ++ allLines entries ↔
      thread.PermitsAll settings stamp entries := by
  induction entries generalizing thread lines with
  | nil => simp [CAsyncLog.writeLines, allLines, PermitsAll, tidy.contents]
  | cons entry rest induction =>
      have split : lines ++ allLines (entry :: rest) =
          (lines ++ entry.1.text) ++ allLines rest := by
        simp [allLines]
      by_cases permitted : thread.Permits settings stamp entry
      · have rested := induction (tidy.step permitted)
        rw [split]
        constructor
        · intro whole
          exact ⟨permitted, rested.mp whole⟩
        · intro all
          exact rested.mpr all.2
      · constructor
        · intro whole
          have short : (writeLines settings stamp thread (entry :: rest)).Behind
              (lines ++ entry.1.text ++ allLines rest) :=
            (tidy.behind permitted).writeLines rest
          rw [Behind] at short
          rw [← split, ← whole] at short
          exact absurd short (Nat.lt_irrefl _)
        · intro all
          exact absurd all.1 permitted

/-- The files hold all lines in order exactly if no roll finds its name in use, and no line
but the last is too long for the count of `fwrite`. -/
theorem files_hold_lines_iff (start : Int) (entries : List (LogLine settings × Int)) :
    (writeLines settings stamp (startThread settings stamp start) entries).files.contents =
        allLines entries ↔
      (startThread settings stamp start).PermitsAll settings stamp entries := by
  have tidy : (startThread settings stamp start).Tidy settings [] := startThread_tidy start
  rw [← tidy.writeLines_iff entries, List.nil_append]

/-- A line reaches the roll size in the second in which its file was opened. -/
theorem roll_in_same_second_empties_file :
    ¬ ∃ stamp : Int → Bytes, ∀ settings start (entries : List (LogLine settings × Int)),
      (start :: entries.map Prod.snd).Pairwise (· ≤ ·) →
        (writeLines settings stamp (startThread settings stamp start) entries).files.contents =
          allLines entries := by
  rintro ⟨stamp, holds⟩
  have tidy : (startThread sampleSettings stamp 0).Tidy sampleSettings [] := startThread_tidy 0
  have refused : ¬ (startThread sampleSettings stamp 0).Permits sampleSettings stamp
      (sampleLine, 0) := by
    intro permitted
    have size : sampleSettings.fileRollSize ≤ signed 64 (0 + sampleLine.text.length) := by decide
    exact permitted.apart (by decide) size (List.mem_singleton.mpr rfl)
  have short := tidy.behind refused
  rw [WriteThread.Behind] at short
  have whole := holds sampleSettings 0 [(sampleLine, 0)] (by decide)
  simp only [writeLines, List.foldl_cons, List.foldl_nil] at whole
  rw [whole] at short
  simp [allLines] at short

end CAsyncLog

end MyBookSources.Base
