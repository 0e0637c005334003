import MyBookSources.Base.ConfigFileReader
import MyBookSources.Utils.StringUtilSpec

/-! # The lines of a configuration file

`_LoadFile` reads a line in pieces if it is longer than the buffer, and a piece only up to its
first zero byte. It parses each piece as if it were a line.
-/

namespace MyBookSources.Base.CConfigFileReader

/-! ## Lines as they are meant -/

def trimmed (text : Bytes) : Bytes := (text.dropWhile isBlank).rdropWhile isBlank

/-- The name and the value of a line: the text in front of a comment, split at the first equals
sign. -/
def linePair (line : Bytes) : Option (Bytes × Bytes) :=
  let text := line.takeWhile (· ≠ hash)
  let name := trimmed (text.takeWhile (· ≠ equalsSign))
  let value := trimmed (text.dropWhile (· ≠ equalsSign)).tail
  if name = [] ∨ value = [] then none else some (name, value)

def lineValue (name line : Bytes) : Option Bytes :=
  (linePair line).bind fun pair => if name = pair.1 then some pair.2 else none

/-- The value that the first of the lines gives the name that gives it one. -/
def firstValue (lines : List Bytes) (name : Bytes) : Option Bytes :=
  lines.findSome? (lineValue name)

def LoadsLines (file : Bytes) : Prop :=
  ∃ map, loadFile .empty file = some map ∧
    ∀ name, map.entries.lookup name = firstValue (file.splitOn newline) name

/-! ## Pieces -/

def asLine (piece : Bytes) : Bytes := stripNewline (cString piece)

/-- What the calls of `fgets` read. -/
def pieces (file : Bytes) : List Bytes := boundedLines 255 [] file

theorem trimmed_eq_nil_iff (text : Bytes) :
    trimmed text = [] ↔ text.dropWhile isBlank = [] := by
  rw [trimmed, StringUtil.strip_eq_nil_iff, List.dropWhile_eq_nil_iff]

theorem trimSpace_eq (text : Bytes) :
    trimSpace text = if trimmed text = [] then none else some (trimmed text) := by
  rw [trimSpace, if_congr (trimmed_eq_nil_iff text) rfl rfl]
  rfl

theorem lookup_parseLine (map : ConfigMap) (line name : Bytes) :
    (parseLine map (line.takeWhile (· ≠ hash))).entries.lookup name =
      (map.entries.lookup name).or (lineValue name line) := by
  rw [lineValue, linePair]
  generalize line.takeWhile (· ≠ hash) = text
  rw [parseLine]
  cases behind : text.dropWhile (· ≠ equalsSign) with
  | nil =>
      have nothing : trimmed ([] : Bytes).tail = [] := rfl
      rw [nothing, if_pos (.inr rfl), Option.bind_none, Option.or_none]
  | cons sign rest =>
      dsimp only
      rw [trimSpace_eq, trimSpace_eq, List.tail_cons]
      generalize trimmed (text.takeWhile (· ≠ equalsSign)) = key
      generalize trimmed rest = value
      by_cases noName : key = []
      · have dropped : key = [] ∨ value = [] := .inl noName
        rw [if_pos noName, if_pos dropped, Option.bind_none, Option.or_none]
      by_cases noValue : value = []
      · have dropped : key = [] ∨ value = [] := .inr noValue
        rw [if_neg noName, if_pos noValue, if_pos dropped, Option.bind_none, Option.or_none]
      · rw [if_neg noName, if_neg noValue, if_neg (not_or.mpr ⟨noName, noValue⟩),
          Option.bind_some]
        exact SortedMap.lookup_insert map key name value

theorem loadLine_spec (map : ConfigMap) {piece : Bytes} (some_byte : piece ≠ []) :
    (piece.head? = some 0 → loadLine map piece = none) ∧
      (piece.head? ≠ some 0 → ∃ next, loadLine map piece = some next ∧ ∀ name,
        next.entries.lookup name =
          (map.entries.lookup name).or (lineValue name (asLine piece))) := by
  rcases List.exists_cons_of_ne_nil some_byte with ⟨first, rest, rfl⟩
  have begins : cString (first :: rest) = [] ↔ first = 0 := by
    rw [cString, List.takeWhile_cons]
    by_cases zero : first = 0 <;> simp [zero]
  rw [List.head?_cons, ne_eq, Option.some.injEq]
  constructor
  · intro zero
    rw [loadLine, if_pos (begins.mpr zero)]
  · intro other
    have parsed := lookup_parseLine map (asLine (first :: rest))
    rw [loadLine, if_neg (fun empty => other (begins.mp empty))]
    dsimp only
    change ∃ next, (if (asLine (first :: rest)).takeWhile (· ≠ hash) = [] then _ else _) = _ ∧ _
    split
    · next comment =>
      refine ⟨map, rfl, fun name => ?_⟩
      rw [← parsed name, comment]
      rfl
    · exact ⟨_, rfl, parsed⟩

theorem foldlM_loadLine {bufs : List Bytes} (filled : [] ∉ bufs) (map : ConfigMap) :
    ((∃ piece ∈ bufs, piece.head? = some 0) → bufs.foldlM loadLine map = none) ∧
      ((∀ piece ∈ bufs, piece.head? ≠ some 0) → ∃ last, bufs.foldlM loadLine map = some last ∧
        ∀ name, last.entries.lookup name =
          (map.entries.lookup name).or (firstValue (bufs.map asLine) name)) := by
  induction bufs generalizing map with
  | nil =>
      constructor
      · rintro ⟨piece, member, _⟩
        cases member
      · intro _
        exact ⟨map, rfl, fun name => (Option.or_none).symm⟩
  | cons piece bufs induction =>
      rw [List.mem_cons, not_or] at filled
      have round := loadLine_spec map (Ne.symm filled.1)
      rw [List.foldlM_cons]
      by_cases zero : piece.head? = some 0
      · constructor
        · intro _
          rw [round.1 zero]
          rfl
        · intro none
          exact absurd zero (none piece List.mem_cons_self)
      · rcases round.2 zero with ⟨next, read, values⟩
        rw [read]
        have rest := induction filled.2 next
        constructor
        · rintro ⟨other, member, head⟩
          rcases List.mem_cons.mp member with rfl | later
          · exact absurd head zero
          · exact rest.1 ⟨other, later, head⟩
        · intro none
          rcases rest.2 fun other member => none other (List.mem_cons_of_mem _ member) with
            ⟨last, loaded, later⟩
          refine ⟨last, loaded, fun name => ?_⟩
          rw [later name, values name, Option.or_assoc, List.map_cons, firstValue, firstValue,
            List.findSome?_cons]
          cases lineValue name (asLine piece) <;> rfl

theorem not_mem_boundedLines (room : Nat) (front bytes : Bytes) :
    [] ∉ boundedLines room front bytes := by
  induction bytes generalizing front with
  | nil =>
      rw [boundedLines]
      split
      · exact List.not_mem_nil
      · next some_byte =>
        rw [List.mem_singleton]
        exact Ne.symm some_byte
  | cons byte bytes induction =>
      rw [boundedLines]
      split
      · rw [List.mem_cons, not_or]
        exact ⟨by simp, induction []⟩
      · exact induction _

theorem loadsLines_iff (file : Bytes) :
    LoadsLines file ↔ (∀ piece ∈ pieces file, piece.head? ≠ some 0) ∧ ∀ name,
      firstValue ((pieces file).map asLine) name = firstValue (file.splitOn newline) name := by
  have rounds := foldlM_loadLine (not_mem_boundedLines 255 [] file) .empty
  change (_ → loadFile .empty file = none) ∧ _ at rounds
  constructor
  · rintro ⟨map, loaded, values⟩
    have clean : ∀ piece ∈ pieces file, piece.head? ≠ some 0 := by
      intro piece member zero
      rw [rounds.1 ⟨piece, member, zero⟩] at loaded
      cases loaded
    refine ⟨clean, fun name => ?_⟩
    rcases rounds.2 clean with ⟨last, same, own⟩
    change loadFile .empty file = some last at same
    rw [loaded] at same
    cases same
    rw [← values name, own name]
    rfl
  · rintro ⟨clean, same⟩
    rcases rounds.2 clean with ⟨map, loaded, values⟩
    refine ⟨map, loaded, fun name => ?_⟩
    rw [values name, ← same name]
    rfl

/-! ## Lines that fit -/

/-- A line without zero bytes that fits into the buffer with its newline. -/
def Fitting (line : Bytes) : Prop := line.length < 255 ∧ 0 ∉ line

instance (line : Bytes) : Decidable (Fitting line) :=
  inferInstanceAs (Decidable (_ ∧ _))

theorem asLine_eq {line : Bytes} (noZero : 0 ∉ line) (noNewline : newline ∉ line) :
    asLine line = line ∧ asLine (line ++ [newline]) = line := by
  have behind : 0 ∉ line ++ [newline] := by
    rw [List.mem_append, not_or]
    exact ⟨noZero, by decide⟩
  constructor
  · rw [asLine, (cString_eq_iff line).mpr noZero, stripNewline, if_neg]
    intro last
    exact noNewline (List.mem_of_getLast? last)
  · rw [asLine, (cString_eq_iff _).mpr behind, stripNewline, List.getLast?_concat, if_pos rfl,
      List.dropLast_concat]

theorem firstValue_pieces {file : Bytes} (fitting : ∀ line ∈ file.splitOn newline, Fitting line) :
    (∀ piece ∈ pieces file, 0 ∉ piece) ∧ ∀ name,
      firstValue ((pieces file).map asLine) name = firstValue (file.splitOn newline) name := by
  induction size : file.length using Nat.strong_induction_on generalizing file with
  | _ length induction =>
      by_cases member : newline ∈ file
      · rcases List.eq_append_cons_of_mem member with ⟨line, rest, rfl, clean⟩
        have plain : ∀ byte ∈ line, byte ≠ newline := by
          rintro byte inLine rfl
          exact clean inLine
        rw [List.splitOn_append_cons_self_of_not_mem clean] at fitting ⊢
        rcases fitting line List.mem_cons_self with ⟨short, noZero⟩
        have cut : pieces (line ++ newline :: rest) = (line ++ [newline]) :: pieces rest :=
          BoundedLines.boundedLines_line plain rest (by rwa [List.length_nil, Nat.zero_add])
        have shorter : rest.length < length := by
          rw [List.length_append, List.length_cons] at size
          omega
        rcases induction _ shorter (fun other later => fitting other (List.mem_cons_of_mem _ later))
          rfl with ⟨noZeros, same⟩
        rw [cut]
        constructor
        · intro piece first
          rcases List.mem_cons.mp first with rfl | later
          · rw [List.mem_append, not_or]
            exact ⟨noZero, by decide⟩
          · exact noZeros piece later
        · intro name
          have later := same name
          rw [firstValue, firstValue] at later
          rw [List.map_cons, (asLine_eq noZero clean).2, firstValue, firstValue,
            List.findSome?_cons, List.findSome?_cons, later]
      · rw [List.splitOn_eq_singleton member] at fitting ⊢
        rcases fitting file (List.mem_singleton_self file) with ⟨short, noZero⟩
        have plain : ∀ byte ∈ file, byte ≠ newline := by
          rintro byte inFile rfl
          exact member inFile
        by_cases empty : file = []
        · subst empty
          refine ⟨fun piece first => ?_, fun name => rfl⟩
          cases first
        · have cut : pieces file = [file] :=
            BoundedLines.boundedLines_last plain (by rw [List.length_nil]; omega) empty
          rw [cut]
          constructor
          · intro piece first
            rwa [List.mem_singleton.mp first]
          · intro name
            rw [List.map_singleton, (asLine_eq noZero member).1]

/-- A file is loaded as its lines exactly if the pieces that are read can be looked at and give
each name the same value first. That is so where all lines fit. -/
theorem loadFile_lines_iff (file : Bytes) :
    (LoadsLines file ↔ (∀ piece ∈ pieces file, piece.head? ≠ some 0) ∧ ∀ name,
      firstValue ((pieces file).map asLine) name = firstValue (file.splitOn newline) name) ∧
      ((∀ line ∈ file.splitOn newline, Fitting line) → LoadsLines file) := by
  refine ⟨loadsLines_iff file, fun fitting => ?_⟩
  rcases firstValue_pieces fitting with ⟨noZeros, same⟩
  refine (loadsLines_iff file).mpr ⟨fun piece member zero => ?_, same⟩
  exact noZeros piece member (List.mem_of_head? zero)

theorem loadFile_two_lines : LoadsLines (ascii "a=b\nc=d") := by
  have fitting : ∀ line ∈ (ascii "a=b\nc=d").splitOn newline, Fitting line := by decide
  exact (loadFile_lines_iff (ascii "a=b\nc=d")).2 fitting

/-- A line of 258 bytes: the last three come as a piece of their own. -/
def longLine : Bytes := (ascii "a=" ++ List.replicate 253 98) ++ ascii "c=d"

/-- The end of the value is read as another name. -/
theorem long_line_two_names :
    firstValue (longLine.splitOn newline) (ascii "c") = none ∧
      firstValue ((pieces longLine).map asLine) (ascii "c") = some (ascii "d") ∧
      ¬ LoadsLines longLine := by
  have noNewline : newline ∉ longLine := by decide +kernel
  have line : firstValue (longLine.splitOn newline) (ascii "c") = none := by
    rw [List.splitOn_eq_singleton noNewline]
    decide +kernel
  have cut : pieces longLine = [ascii "a=" ++ List.replicate 253 98, ascii "c=d"] := by
    rw [pieces, longLine, BoundedLines.boundedLines_full]
    · rw [List.nil_append]
      exact congrArg _ (by decide)
    · intro byte member ends
      rw [ends] at member
      exact noNewline (List.mem_append_left _ member)
    · decide +kernel
    · exact List.cons_ne_nil _ _
  have piece : firstValue ((pieces longLine).map asLine) (ascii "c") = some (ascii "d") := by
    rw [cut]
    decide +kernel
  refine ⟨line, piece, fun loads => ?_⟩
  have same := ((loadsLines_iff longLine).mp loads).2 (ascii "c")
  rw [piece, line] at same
  cases same

example : (loadFile .empty (ascii "a = b # c\n\nd=e")).map SortedMap.entries =
    some [(ascii "a", ascii "b"), (ascii "d", ascii "e")] := by decide +kernel

end MyBookSources.Base.CConfigFileReader
