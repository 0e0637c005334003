import MyBookSources.Foundation.BoundedLines
import MyBookSources.Foundation.SortedMap
import Mathlib.Algebra.Order.BigOperators.Group.List
import Mathlib.Data.List.DropRight

/-! # CConfigFileReader

A configuration file has a line `name=value` for each entry. It is written through a buffer of
128 bytes and read through one of 256. What a `snprintf` cuts off is lost, and the newline is the
first to go: the next entry then continues the line.
-/

namespace MyBookSources.Base

/-- `std::map<std::string, std::string>`. -/
abbrev ConfigMap := SortedMap Bytes Bytes

namespace CConfigFileReader

def equalsSign : Byte := 61

def hash : Byte := 35

/-- What `_TrimSpace` removes: a space, a tab or a carriage return. -/
def isBlank (byte : Byte) : Bool :=
  byte = 32 || byte = 9 || byte = 13

/-- A null pointer is `none`. The end is only looked for where some byte is not blank, so the
length that is tested last is positive. -/
def trimSpace (name : Bytes) : Option Bytes :=
  let start := name.dropWhile isBlank
  if start = [] then none else some (start.rdropWhile isBlank)

def parseLine (map : ConfigMap) (line : Bytes) : ConfigMap :=
  match line.dropWhile (· ≠ equalsSign) with
  | [] => map
  | _ :: rest =>
      match trimSpace (line.takeWhile (· ≠ equalsSign)), trimSpace rest with
      | some key, some value => map.insert key value
      | _, _ => map

/-- Takes the newline from the end of `text`. -/
def stripNewline (text : Bytes) : Bytes :=
  if text.getLast? = some newline then text.dropLast else text

/-- A round of the loop in `_LoadFile`, once `fgets` has filled `buf`. In front of an empty string
there is no byte to look at. -/
def loadLine (map : ConfigMap) (buf : Bytes) : Option ConfigMap :=
  if cString buf = [] then none
  else
    let text := (stripNewline (cString buf)).takeWhile (· ≠ hash)
    if text = [] then some map else some (parseLine map text)

/-- `_LoadFile` of a file that can be opened. -/
def loadFile (map : ConfigMap) (file : Bytes) : Option ConfigMap :=
  (boundedLines 255 [] file).foldlM loadLine map

/-- `snprintf` to `szPaire`. -/
def writePair (entry : Bytes × Bytes) : Bytes :=
  (cString entry.1 ++ [equalsSign] ++ cString entry.2 ++ [newline]).take 127

/-- What `_WriteFile` puts into a file that takes it. -/
def writeFile (map : ConfigMap) : Bytes :=
  map.entries.flatMap writePair

/-! ## Names and values -/

/-- Bytes that neither end a line or a string nor begin a comment. -/
def Clean (text : Bytes) : Prop :=
  ∀ byte ∈ text, byte ≠ 0 ∧ byte ≠ newline ∧ byte ≠ hash

instance (text : Bytes) : Decidable (Clean text) :=
  List.decidableBAll (fun byte => byte ≠ 0 ∧ byte ≠ newline ∧ byte ≠ hash) text

def Unsplit (text : Bytes) : Prop :=
  ∀ byte ∈ text, byte ≠ equalsSign

instance (text : Bytes) : Decidable (Unsplit text) :=
  List.decidableBAll (fun byte => byte ≠ equalsSign) text

structure Plain (text : Bytes) : Prop where
  nonempty : text ≠ []
  clean : Clean text
  first : text.head?.any isBlank = false
  last : text.getLast?.any isBlank = false

structure PlainEntry (entry : Bytes × Bytes) : Prop where
  name : Plain entry.1
  value : Plain entry.2
  unsplit : Unsplit entry.1

instance (text : Bytes) : Decidable (Plain text) :=
  decidable_of_iff
    (text ≠ [] ∧ Clean text ∧ text.head?.any isBlank = false ∧
      text.getLast?.any isBlank = false)
    ⟨fun ⟨nonempty, clean, first, last⟩ => ⟨nonempty, clean, first, last⟩,
      fun plain => ⟨plain.nonempty, plain.clean, plain.first, plain.last⟩⟩

instance (entry : Bytes × Bytes) : Decidable (PlainEntry entry) :=
  decidable_of_iff (Plain entry.1 ∧ Plain entry.2 ∧ Unsplit entry.1)
    ⟨fun ⟨name, value, unsplit⟩ => ⟨name, value, unsplit⟩,
      fun plain => ⟨plain.name, plain.value, plain.unsplit⟩⟩

def pairLength (entry : Bytes × Bytes) : Nat :=
  entry.1.length + 1 + entry.2.length

/-- Each line fits into the buffer, with its newline unless it is the last one. -/
structure Fits (entries : List (Bytes × Bytes)) : Prop where
  each : ∀ entry ∈ entries, pairLength entry ≤ 127
  butLast : ∀ entry ∈ entries.dropLast, pairLength entry ≤ 126

def pairText (entry : Bytes × Bytes) : Bytes :=
  entry.1 ++ equalsSign :: entry.2

theorem length_pairText (entry : Bytes × Bytes) : (pairText entry).length = pairLength entry := by
  rw [pairText, List.length_append, List.length_cons, pairLength]
  omega

/-! ## Reading what is plain -/

theorem Plain.dropWhile_append {text : Bytes} (plain : Plain text) (rest : Bytes) :
    (text ++ rest).dropWhile isBlank = text ++ rest := by
  rcases text with _ | ⟨byte, text⟩
  · exact absurd rfl plain.nonempty
  · have first : isBlank byte = false := plain.first
    rw [List.cons_append, List.dropWhile_cons_of_neg (by simp [first])]

theorem Plain.rdropWhile_eq {text : Bytes} (plain : Plain text) :
    text.rdropWhile isBlank = text := by
  rw [List.rdropWhile_eq_self_iff]
  intro nonempty
  have last := plain.last
  rw [List.getLast?_eq_some_getLast nonempty, Option.any_some] at last
  simp [last]

theorem Plain.rdropWhile_append {text : Bytes} (plain : Plain text) (rest : Bytes) :
    ∃ tail, (text ++ rest).rdropWhile isBlank = text ++ tail := by
  induction rest using List.reverseRecOn with
  | nil => exact ⟨[], by rw [List.append_nil, plain.rdropWhile_eq]⟩
  | append_singleton rest byte induction =>
      rw [← List.append_assoc, List.rdropWhile_concat]
      split
      · exact induction
      · exact ⟨rest ++ [byte], List.append_assoc ..⟩

theorem Plain.trimSpace_append {text : Bytes} (plain : Plain text) (rest : Bytes) :
    ∃ tail, trimSpace (text ++ rest) = some (text ++ tail) := by
  have start := plain.dropWhile_append rest
  have nonempty : text ++ rest ≠ [] := by simp [plain.nonempty]
  rcases plain.rdropWhile_append rest with ⟨tail, trimmed⟩
  exact ⟨tail, by simp only [trimSpace, start, nonempty, if_false, trimmed]⟩

theorem Plain.trimSpace_eq {text : Bytes} (plain : Plain text) : trimSpace text = some text := by
  have start := plain.dropWhile_append []
  rw [List.append_nil] at start
  simp only [trimSpace, start, plain.nonempty, if_false, plain.rdropWhile_eq]

theorem Plain.cString_eq {text : Bytes} (plain : Plain text) : cString text = text := by
  rw [cString_eq_iff]
  intro member
  exact (plain.clean 0 member).1 rfl

theorem parseLine_split (map : ConfigMap) {name : Bytes} (unsplit : Unsplit name)
    (rest : Bytes) :
    parseLine map (name ++ equalsSign :: rest) =
      match trimSpace name, trimSpace rest with
      | some key, some value => map.insert key value
      | _, _ => map := by
  have pass : ∀ byte ∈ name, decide (byte ≠ equalsSign) = true := by
    simpa [Unsplit] using unsplit
  have front : (name ++ equalsSign :: rest).takeWhile (· ≠ equalsSign) = name := by
    rw [List.takeWhile_append_of_pos pass]
    simp
  have back : (name ++ equalsSign :: rest).dropWhile (· ≠ equalsSign) = equalsSign :: rest := by
    rw [List.dropWhile_append_of_pos pass]
    simp
  rw [parseLine, front, back]

theorem Clean.stripNewline_append {text : Bytes} (nonempty : text ≠ []) (clean : Clean text)
    (rest : Bytes) : stripNewline (text ++ rest) = text ++ stripNewline rest := by
  rcases List.eq_nil_or_concat rest with rfl | ⟨front, last, rfl⟩
  · have other := (clean _ (List.getLast_mem nonempty)).2.1
    rw [List.append_nil, stripNewline, List.getLast?_eq_some_getLast nonempty,
      if_neg (by simpa using other)]
    simp [stripNewline]
  · rw [List.concat_eq_append, stripNewline, stripNewline, ← List.append_assoc,
      List.getLast?_concat, List.getLast?_concat]
    split
    · rw [List.dropLast_concat, List.dropLast_concat]
    · rw [List.append_assoc]

def lineEnd (rest : Bytes) : Bytes :=
  (stripNewline (cString rest)).takeWhile (· ≠ hash)

theorem loadLine_append (map : ConfigMap) {text : Bytes} (nonempty : text ≠ [])
    (clean : Clean text) (rest : Bytes) :
    loadLine map (text ++ rest) = some (parseLine map (text ++ lineEnd rest)) := by
  have string : cString (text ++ rest) = text ++ cString rest := by
    apply List.takeWhile_append_of_pos
    intro byte member
    simpa using (clean byte member).1
  have comment : ∀ rest : Bytes,
      (text ++ rest).takeWhile (· ≠ hash) = text ++ rest.takeWhile (· ≠ hash) := by
    intro rest
    apply List.takeWhile_append_of_pos
    intro byte member
    simpa using (clean byte member).2.2
  have some_text : ∀ rest : Bytes, text ++ rest ≠ [] := by simp [nonempty]
  rw [loadLine, string, if_neg (some_text _), clean.stripNewline_append nonempty, comment, lineEnd]
  exact if_neg (some_text _)

theorem loadLine_clean (map : ConfigMap) {text : Bytes} (nonempty : text ≠ [])
    (clean : Clean text) :
    loadLine map text = some (parseLine map text) ∧
      loadLine map (text ++ [newline]) = some (parseLine map text) := by
  constructor
  · have whole := loadLine_append map nonempty clean []
    rwa [List.append_nil, show lineEnd [] = [] from rfl, List.append_nil] at whole
  · rw [loadLine_append map nonempty clean, show lineEnd [newline] = [] from rfl, List.append_nil]

/-! ## Lines of a file that was written -/

section

variable {entry : Bytes × Bytes} (plain : PlainEntry entry)

include plain

theorem clean_pairText : Clean (pairText entry) := by
  intro byte member
  rcases List.mem_append.mp member with name | rest
  · exact plain.name.clean byte name
  · rcases List.mem_cons.mp rest with rfl | value
    · decide
    · exact plain.value.clean byte value

theorem writePair_eq : writePair entry = (pairText entry ++ [newline]).take 127 := by
  rw [writePair, plain.name.cString_eq, plain.value.cString_eq, pairText]
  simp

theorem writePair_short (short : pairLength entry ≤ 126) :
    writePair entry = pairText entry ++ [newline] := by
  rw [writePair_eq plain, List.take_of_length_le]
  rw [List.length_append, length_pairText, List.length_singleton]
  omega

theorem writePair_full (full : pairLength entry = 127) : writePair entry = pairText entry := by
  rw [writePair_eq plain, List.take_append_of_le_length (by rw [length_pairText, full]),
    List.take_of_length_le (by rw [length_pairText, full])]

theorem parseLine_pairText (map : ConfigMap) :
    parseLine map (pairText entry) = map.insert entry.1 entry.2 := by
  rw [pairText, parseLine_split map plain.unsplit, plain.name.trimSpace_eq,
    plain.value.trimSpace_eq]

theorem loadFile_line (short : pairLength entry ≤ 126) (map : ConfigMap) (rest : Bytes) :
    loadFile map (writePair entry ++ rest) = loadFile (map.insert entry.1 entry.2) rest := by
  have clean := clean_pairText plain
  have nonempty : pairText entry ≠ [] := by simp [pairText]
  have fits : (pairText entry).length < 255 := by
    rw [length_pairText]
    omega
  have line : boundedLines 255 [] (pairText entry ++ newline :: rest) =
      (pairText entry ++ [newline]) :: boundedLines 255 [] rest :=
    BoundedLines.boundedLines_line (fun byte member => (clean byte member).2.1) rest
      (by rwa [List.length_nil, Nat.zero_add])
  rw [loadFile, writePair_short plain short, List.append_assoc, List.singleton_append, line,
    List.foldlM_cons, (loadLine_clean map nonempty clean).2, parseLine_pairText plain]
  rfl

theorem loadFile_last (fits : pairLength entry ≤ 127) (map : ConfigMap) :
    loadFile map (writePair entry) = some (map.insert entry.1 entry.2) := by
  rcases Nat.lt_or_eq_of_le fits with short | full
  · have line := loadFile_line plain (by omega) map []
    rwa [List.append_nil] at line
  · have clean := clean_pairText plain
    have nonempty : pairText entry ≠ [] := by simp [pairText]
    have line : boundedLines 255 [] (pairText entry) = [pairText entry] :=
      BoundedLines.boundedLines_last (fun byte member => (clean byte member).2.1)
        (by rw [length_pairText, full]; decide) nonempty
    rw [loadFile, writePair_full plain full, line, List.foldlM_cons,
      (loadLine_clean map nonempty clean).1, parseLine_pairText plain]
    rfl

end

/-! ## A newline that is cut off -/

theorem mem_parseLine {map : ConfigMap} {entry : Bytes × Bytes} (member : entry ∈ map.entries)
    (line : Bytes) : entry ∈ (parseLine map line).entries := by
  unfold parseLine
  split
  · exact member
  · split
    · exact SortedMap.mem_insert_of_mem member _ _
    · exact member

theorem mem_foldlM_loadLine {bufs : List Bytes} {map last : ConfigMap} {entry : Bytes × Bytes}
    (member : entry ∈ map.entries) (loaded : bufs.foldlM loadLine map = some last) :
    entry ∈ last.entries := by
  induction bufs generalizing map with
  | nil =>
      cases loaded
      exact member
  | cons buf bufs induction =>
      rcases Option.bind_eq_some_iff.mp loaded with ⟨next, read, rest⟩
      refine induction ?_ rest
      unfold loadLine at read
      split at read
      · cases read
      · dsimp only at read
        split at read
        · cases read
          exact member
        · cases read
          exact mem_parseLine member _

theorem Plain.append_byte {text : Bytes} (plain : Plain text) {byte : Byte}
    (clean : byte ≠ 0 ∧ byte ≠ newline ∧ byte ≠ hash) (solid : isBlank byte = false) :
    Plain (text ++ [byte]) where
  nonempty := by simp
  clean other member := by
    rcases List.mem_append.mp member with old | new
    · exact plain.clean other old
    · rw [List.mem_singleton.mp new]
      exact clean
  first := by
    rw [List.head?_append_of_ne_nil _ plain.nonempty]
    exact plain.first
  last := by
    rw [List.getLast?_concat, Option.any_some]
    exact solid

theorem loadFile_front {entry : Bytes × Bytes} (plain : PlainEntry entry)
    (fits : pairLength entry ≤ 255) {map last : ConfigMap}
    (before : ∀ other ∈ map.entries, other.1 < entry.1) {rest : Bytes}
    (loaded : loadFile map (pairText entry ++ rest) = some last) :
    ∃ tail, (entry.1, entry.2 ++ tail) ∈ last.entries := by
  have clean := clean_pairText plain
  have nonempty : pairText entry ≠ [] := by simp [pairText]
  have lines : ∃ tail more, boundedLines 255 [] (pairText entry ++ rest) =
      (pairText entry ++ tail) :: more :=
    BoundedLines.boundedLines_front (fun byte member => (clean byte member).2.1) rest
      (by rwa [List.length_nil, Nat.zero_add, length_pairText]) nonempty
  rcases lines with ⟨tail, more, lines⟩
  rw [loadFile, lines] at loaded
  rcases Option.bind_eq_some_iff.mp loaded with ⟨middle, read, others⟩
  rcases plain.value.trimSpace_append (lineEnd tail) with ⟨kept, trimmed⟩
  have line : pairText entry ++ lineEnd tail =
      entry.1 ++ equalsSign :: (entry.2 ++ lineEnd tail) := by
    simp [pairText]
  rw [loadLine_append map nonempty clean, line, parseLine_split map plain.unsplit,
    plain.name.trimSpace_eq, trimmed] at read
  cases read
  refine ⟨kept, mem_foldlM_loadLine ?_ others⟩
  rw [SortedMap.entries_insert_last _ before]
  exact List.mem_append_right _ List.mem_cons_self

theorem loadFile_merged {entry next : Bytes × Bytes} (plain : PlainEntry entry)
    (plainNext : PlainEntry next) (full : pairLength entry = 127) {map last : ConfigMap}
    (before : ∀ other ∈ map.entries, other.1 < entry.1) (rest : Bytes)
    (loaded : loadFile map (writePair entry ++ (writePair next ++ rest)) = some last) :
    ∃ value, (entry.1, value) ∈ last.entries ∧ value ≠ entry.2 := by
  rcases named : next.1 with _ | ⟨byte, name⟩
  · exact absurd named plainNext.name.nonempty
  · have solid := plainNext.name.first
    rw [named, List.head?_cons, Option.any_some] at solid
    have clean : byte ≠ 0 ∧ byte ≠ newline ∧ byte ≠ hash :=
      plainNext.name.clean byte (by rw [named]; exact List.mem_cons_self)
    have written : ∃ behind, writePair next ++ rest = byte :: behind := by
      rw [writePair_eq plainNext, pairText, named]
      exact ⟨_, rfl⟩
    rcases written with ⟨behind, written⟩
    let longer : Bytes × Bytes := (entry.1, entry.2 ++ [byte])
    have plainLonger : PlainEntry longer :=
      ⟨plain.name, plain.value.append_byte clean solid, plain.unsplit⟩
    have length : pairLength longer = 128 := by
      simp only [pairLength, longer, List.length_append, List.length_singleton] at full ⊢
      omega
    have text : writePair entry ++ (writePair next ++ rest) = pairText longer ++ behind := by
      rw [writePair_full plain full, written]
      simp [pairText, longer]
    rw [text] at loaded
    rcases loadFile_front plainLonger (by omega) before loaded with ⟨tail, member⟩
    refine ⟨_, member, ?_⟩
    intro same
    have lengths := congrArg List.length same
    simp only [longer, List.length_append, List.length_singleton] at lengths
    omega

/-! ## Lines that are too long -/

def content (text : Bytes) : Nat := text.countP (· ≠ newline)

def weight (entry : Bytes × Bytes) : Nat := content entry.1 + 1 + content entry.2

theorem content_append (left right : Bytes) :
    content (left ++ right) = content left + content right :=
  List.countP_append

theorem content_le_of_sublist {left right : Bytes} (sublist : left.Sublist right) :
    content left ≤ content right :=
  sublist.countP_le

theorem content_eq_length {text : Bytes} (plain : ∀ byte ∈ text, byte ≠ newline) :
    content text = text.length := by
  apply List.countP_eq_length.mpr
  simpa using plain

theorem sublist_of_trimSpace {name trimmed : Bytes} (found : trimSpace name = some trimmed) :
    trimmed.Sublist name := by
  simp only [trimSpace] at found
  split at found
  · cases found
  · cases found
    exact (List.rdropWhile_prefix _ _).sublist.trans (List.dropWhile_sublist _)

theorem weight_parseLine (map : ConfigMap) (line : Bytes) :
    ((parseLine map line).entries.map weight).sum ≤
      (map.entries.map weight).sum + content line := by
  unfold parseLine
  split
  · omega
  · next sign rest found =>
    split
    · next key value name data =>
      have split : line.takeWhile (· ≠ equalsSign) ++ sign :: rest = line := by
        rw [← found, List.takeWhile_append_dropWhile]
      have equals : sign = equalsSign := by
        have head := List.head?_dropWhile_not (fun byte => decide (byte ≠ equalsSign)) line
        rw [found] at head
        simpa using head
      have total := map.sum_insert_le weight key value
      have nameContent := content_le_of_sublist (sublist_of_trimSpace name)
      have valueContent := content_le_of_sublist (sublist_of_trimSpace data)
      have whole : content line =
          content (line.takeWhile (· ≠ equalsSign)) + (1 + content rest) := by
        conv_lhs => rw [← split, content_append, equals]
        simp [content, equalsSign, newline, Nat.add_comm]
      simp only [weight] at total
      omega
    · omega

theorem weight_loadLine {map next : ConfigMap} {buf : Bytes} (read : loadLine map buf = some next) :
    (next.entries.map weight).sum ≤ (map.entries.map weight).sum + content buf := by
  unfold loadLine at read
  split at read
  · cases read
  · dsimp only at read
    split at read
    · cases read
      omega
    · cases read
      have parsed := weight_parseLine map ((stripNewline (cString buf)).takeWhile (· ≠ hash))
      have stripped : (stripNewline (cString buf)).Sublist (cString buf) := by
        unfold stripNewline
        split
        · exact List.dropLast_sublist _
        · exact List.Sublist.refl _
      have part := content_le_of_sublist
        (((List.takeWhile_sublist (· ≠ hash)).trans stripped).trans (List.takeWhile_sublist _))
      omega

theorem weight_loadFile {map last : ConfigMap} {file : Bytes}
    (loaded : loadFile map file = some last) :
    (last.entries.map weight).sum ≤ (map.entries.map weight).sum + content file := by
  have each : ∀ bufs : List Bytes, ∀ map : ConfigMap, bufs.foldlM loadLine map = some last →
      (last.entries.map weight).sum ≤ (map.entries.map weight).sum + content bufs.flatten := by
    intro bufs
    induction bufs with
    | nil =>
        intro map loaded
        cases loaded
        omega
    | cons buf bufs induction =>
        intro map loaded
        rcases Option.bind_eq_some_iff.mp loaded with ⟨next, read, others⟩
        have first := weight_loadLine read
        have rest := induction next others
        rw [List.flatten_cons, content_append]
        omega
  have whole := each _ map loaded
  rwa [BoundedLines.flatten_boundedLines, List.nil_append] at whole

theorem weight_plain {entry : Bytes × Bytes} (plain : PlainEntry entry) :
    weight entry = pairLength entry := by
  rw [weight, content_eq_length fun byte member => (plain.name.clean byte member).2.1,
    content_eq_length fun byte member => (plain.value.clean byte member).2.1, pairLength]

theorem content_writePair {entry : Bytes × Bytes} (plain : PlainEntry entry) :
    content (writePair entry) ≤ min (pairLength entry) 127 := by
  rw [writePair_eq plain, Nat.le_min]
  constructor
  · have whole := content_le_of_sublist (List.take_sublist 127 (pairText entry ++ [newline]))
    have text : content (pairText entry) = pairLength entry := by
      rw [content_eq_length fun byte member => (clean_pairText plain byte member).2.1,
        length_pairText]
    rw [content_append, text] at whole
    exact whole
  · exact List.countP_le_length.trans (List.length_take_le _ _)

theorem le_of_sum_le {Entry : Type} {smaller larger : Entry → Nat} {entries : List Entry}
    (below : ∀ entry ∈ entries, smaller entry ≤ larger entry)
    (sums : (entries.map larger).sum ≤ (entries.map smaller).sum) :
    ∀ entry ∈ entries, larger entry ≤ smaller entry := by
  induction entries with
  | nil => exact fun _ member => absurd member List.not_mem_nil
  | cons entry entries induction =>
      rcases List.forall_mem_cons.mp below with ⟨first, rest⟩
      have others : (entries.map smaller).sum ≤ (entries.map larger).sum :=
        List.sum_le_sum rest
      simp only [List.map_cons, List.sum_cons] at sums
      exact List.forall_mem_cons.mpr ⟨by omega, induction rest (by omega)⟩

/-- Only entries that the buffer holds come back. -/
theorem pairLength_le_of_loaded {map : ConfigMap}
    (plain : ∀ entry ∈ map.entries, PlainEntry entry)
    (loaded : loadFile .empty (writeFile map) = some map) :
    ∀ entry ∈ map.entries, pairLength entry ≤ 127 := by
  have total := weight_loadFile loaded
  have file : content (writeFile map) ≤
      (map.entries.map fun entry => min (pairLength entry) 127).sum := by
    rw [content, writeFile, List.countP_flatMap]
    apply List.sum_le_sum
    intro entry member
    exact content_writePair (plain entry member)
  have weights : map.entries.map weight = map.entries.map pairLength :=
    List.map_congr_left fun entry member => weight_plain (plain entry member)
  rw [weights] at total
  have nothing : ((SortedMap.empty : ConfigMap).entries.map weight).sum = 0 := rfl
  intro entry member
  have each : pairLength entry ≤ min (pairLength entry) 127 :=
    le_of_sum_le (fun other _ => Nat.min_le_left (pairLength other) 127) (by omega) entry member
  omega

/-! ## The round trip -/

/-- With lines that the buffer holds, the rest of a map comes back behind what has been read
exactly if no newline is cut off but the last. -/
theorem loadFile_rest_iff {whole : ConfigMap} {entries : List (Bytes × Bytes)}
    (plain : ∀ entry ∈ entries, PlainEntry entry)
    (each : ∀ entry ∈ entries, pairLength entry ≤ 127) {map : ConfigMap}
    (split : whole.entries = map.entries ++ entries) :
    loadFile map (entries.flatMap writePair) = some whole ↔
      ∀ entry ∈ entries.dropLast, pairLength entry ≤ 126 := by
  induction entries generalizing map with
  | nil =>
      rw [List.append_nil] at split
      have same : whole = map := SortedMap.ext_entries split
      rw [same]
      exact ⟨fun _ _ member => absurd member List.not_mem_nil, fun _ => rfl⟩
  | cons entry entries induction =>
      rcases List.forall_mem_cons.mp plain with ⟨plainEntry, plainRest⟩
      rcases List.forall_mem_cons.mp each with ⟨fits, fitsRest⟩
      have sorted := whole.sorted
      rw [split] at sorted
      have before : ∀ other ∈ map.entries, other.1 < entry.1 := fun other member =>
        (List.pairwise_append.mp sorted).2.2 other member entry List.mem_cons_self
      have inserted : (map.insert entry.1 entry.2).entries = map.entries ++ [entry] :=
        SortedMap.entries_insert_last entry.2 before
      have splitRest : whole.entries = (map.insert entry.1 entry.2).entries ++ entries := by
        rw [inserted, split, List.append_assoc, List.singleton_append]
      rw [List.flatMap_cons]
      cases entries with
      | nil =>
          rw [List.append_nil] at splitRest
          have same : whole = map.insert entry.1 entry.2 := SortedMap.ext_entries splitRest
          rw [List.flatMap_nil, List.append_nil, loadFile_last plainEntry fits, same]
          exact ⟨fun _ _ member => absurd member List.not_mem_nil, fun _ => rfl⟩
      | cons next others =>
          rw [List.dropLast_cons_cons, List.forall_mem_cons]
          rcases Nat.lt_or_eq_of_le fits with short | full
          · rw [loadFile_line plainEntry (by omega), induction plainRest fitsRest splitRest]
            exact ⟨fun rest => ⟨by omega, rest⟩, fun both => both.2⟩
          · constructor
            · intro loaded
              rw [List.flatMap_cons] at loaded
              rcases loadFile_merged plainEntry (plainRest next List.mem_cons_self) full before _
                loaded with ⟨value, member, different⟩
              have here : (entry.1, entry.2) ∈ whole.entries := by
                rw [split]
                exact List.mem_append_right _ List.mem_cons_self
              exact absurd (SortedMap.value_unique member here) different
            · intro both
              omega

/-- A map that is written and read comes back exactly if its lines fit into the buffer. -/
theorem loadFile_writeFile_iff {map : ConfigMap}
    (plain : ∀ entry ∈ map.entries, PlainEntry entry) :
    loadFile .empty (writeFile map) = some map ↔ Fits map.entries := by
  have split : map.entries = (SortedMap.empty : ConfigMap).entries ++ map.entries := rfl
  constructor
  · intro loaded
    have each := pairLength_le_of_loaded plain loaded
    exact ⟨each, (loadFile_rest_iff plain each split).mp loaded⟩
  · intro fits
    exact (loadFile_rest_iff plain fits.each split).mpr fits.butLast

def addressMap : ConfigMap :=
  (SortedMap.empty.insert (ascii "port") (ascii "8080")).insert (ascii "ip") (ascii "0.0.0.0")

theorem loadFile_writeFile_iff_address :
    loadFile .empty (writeFile addressMap) = some addressMap :=
  (loadFile_writeFile_iff (by decide +kernel)).mpr ⟨by decide, by decide⟩

/-- The line of `a` has 127 bytes without its newline. -/
def fullLineMap : ConfigMap :=
  (SortedMap.empty.insert (ascii "a") (List.replicate 125 98)).insert (ascii "c") (ascii "d")

/-- The entry behind it is read as a part of its value. -/
theorem full_line_merged :
    (∀ entry ∈ fullLineMap.entries, PlainEntry entry) ∧
      (loadFile .empty (writeFile fullLineMap)).map SortedMap.entries =
        some [(ascii "a", List.replicate 125 98 ++ ascii "c=d")] ∧
      loadFile .empty (writeFile fullLineMap) ≠ some fullLineMap := by
  have entries : (loadFile .empty (writeFile fullLineMap)).map SortedMap.entries =
      some [(ascii "a", List.replicate 125 98 ++ ascii "c=d")] := by decide +kernel
  refine ⟨by decide +kernel, entries, ?_⟩
  intro same
  rw [same] at entries
  exact absurd entries (by decide +kernel)

end CConfigFileReader

end MyBookSources.Base
