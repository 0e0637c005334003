import MyBookSources.Foundation.Decimal

/-! # The binary log

`OutputBinary` writes a buffer in hexadecimal, 32 bytes a line, with the index of the line in
front. It forms 512 bytes at a time in a buffer of fixed size.
-/

namespace MyBookSources.Base.CAsyncLog

/-- Stores into a block of memory. It is none where a byte would be written outside. -/
def store (memory : Bytes) (place : Nat) (bytes : Bytes) : Option Bytes :=
  if place + bytes.length ≤ memory.length then some (memory.overwrite place bytes) else none

/-- `sprintf` with `%06u`. -/
def ullto4Str (n : Int) : Bytes :=
  let spelled := Decimal.digits (n % 2 ^ 32).toNat
  List.replicate (6 - spelled.length) 48 ++ spelled

def g_szchar : Bytes := ascii "0123456789abcdef"

structure FormState where
  szbuf : Bytes
  len : Nat
  headlen : Nat
  index : Int

def FormState.put (form : FormState) (character : Byte) : Option FormState :=
  (store form.szbuf form.len [character]).map fun szbuf =>
    { form with szbuf := szbuf, len := form.len + 1 }

/-- The start of a line. `strcat` looks for the end of the text by itself. -/
def FormState.putHead (form : FormState) : Option FormState :=
  (if form.headlen ≠ 0 then form.put 10 else some form).bind fun form =>
    let szhead := (ullto4Str form.index).take 64 ++ [32]
    (store form.szbuf (cString form.szbuf).length (szhead ++ [0])).map fun szbuf =>
      { szbuf := szbuf
        len := form.len + szhead.length
        headlen := szhead.length
        index := signed 32 (form.index + 1) }

def FormState.putByte (form : FormState) (lsize : Nat) (byte : Byte) : Option FormState :=
  (if lsize % 32 = 0 then form.putHead else some form).bind fun form =>
  (if lsize % 16 = 0 ∧ form.headlen ≠ 0 then form.put 32 else some form).bind fun form =>
  (form.put (g_szchar.getD ((byte >>> 4) &&& 15).toNat 0)).bind fun form =>
  form.put (g_szchar.getD (byte &&& 15).toNat 0)

def formLoop : (buffer : Bytes) → (lsize : Nat) → FormState → Option FormState
  | [], _, form => some form
  | byte :: buffer, lsize, form =>
      if form.len + 10 < form.szbuf.length then
        (form.putByte lsize byte).bind (formLoop buffer (lsize + 1))
      else some form

/-- It is none where a byte would be written outside of `szbuf`. -/
def FormLog (index : Int) (szbuf buffer : Bytes) : Option FormState :=
  (formLoop buffer 0 ⟨szbuf, 0, 0, index⟩).bind fun form =>
  (form.put 10).bind fun form =>
  form.put 0

def PRINTSIZE : Nat := 512

def outputLoop (index : Int) (buffer os : Bytes) : Option Bytes :=
  if buffer.isEmpty then some os
  else
    let szbuf := List.replicate (PRINTSIZE * 3 + 8) 0
    (FormLog index szbuf (buffer.take PRINTSIZE)).bind fun form =>
      outputLoop form.index (buffer.drop PRINTSIZE) (os ++ cString form.szbuf)
  termination_by buffer.length
  decreasing_by
    rename_i some_byte
    have positive := List.length_pos_iff.mpr fun empty => some_byte (List.isEmpty_iff.mpr empty)
    rw [List.length_drop]
    exact Nat.sub_lt positive (by decide)

def addressLine (address : Int) (size : Nat) : Bytes :=
  ascii "address[" ++ Decimal.text address ++ ascii "] size[" ++ Decimal.digits size ++ ascii "] "

def OutputBinary (address : Int) (buffer : Bytes) : Option Bytes :=
  outputLoop 0 buffer (addressLine address buffer.length ++ [10])

/-! ## The hexadecimal form -/

def hexDigit (value : Nat) : Byte :=
  if value < 10 then UInt8.ofNat (48 + value) else UInt8.ofNat (87 + value)

def lowerHex (data : Bytes) : Bytes :=
  data.flatMap fun byte => [hexDigit (byte.toNat / 16), hexDigit (byte.toNat % 16)]

/-- A line without its index, which a blank ends, and without blanks. -/
def lineBody (line : Bytes) : Bytes := (line.dropWhile (· ≠ 32)).filter (· ≠ 32)

def bareText (text : Bytes) : Bytes := (text.splitOn 10).tail.flatMap lineBody

/-! ## Reading the lines -/

/-- The bodies of the lines of a text, which may start behind the index of its first line. -/
def bodies : (inIndex : Bool) → Bytes → Bytes
  | _, [] => []
  | inIndex, byte :: text =>
      if byte = 10 then bodies true text
      else if byte = 32 then bodies false text
      else if inIndex then bodies true text
      else byte :: bodies false text

theorem bodies_newline (inIndex : Bool) (text : Bytes) :
    bodies inIndex (10 :: text) = bodies true text := by
  rw [bodies, if_pos rfl]

theorem bodies_blank (inIndex : Bool) (text : Bytes) :
    bodies inIndex (32 :: text) = bodies false text := by
  rw [bodies, if_neg (by decide), if_pos rfl]

def Visible (byte : Byte) : Prop := byte ≠ 0 ∧ byte ≠ 10 ∧ byte ≠ 32

theorem bodies_index {index : Bytes} (visible : ∀ byte ∈ index, Visible byte) (text : Bytes) :
    bodies true (index ++ 32 :: text) = bodies false text := by
  induction index with
  | nil => exact bodies_blank true text
  | cons byte index induction =>
      rcases visible byte (by simp) with ⟨_, noNewline, noBlank⟩
      rw [List.cons_append, bodies, if_neg noNewline, if_neg noBlank, if_pos rfl]
      exact induction fun other member => visible other (by simp [member])

theorem bodies_digit {digit : Byte} (visible : Visible digit) (text : Bytes) :
    bodies false (digit :: text) = digit :: bodies false text := by
  rw [bodies, if_neg visible.2.1, if_neg visible.2.2, if_neg (by decide)]

theorem bodies_eq (text : Bytes) :
    bodies true text = (text.splitOn 10).flatMap lineBody ∧
      bodies false text =
        (text.splitOn 10).head?.elim [] (List.filter (· ≠ 32)) ++
          (text.splitOn 10).tail.flatMap lineBody := by
  induction text with
  | nil => exact ⟨rfl, rfl⟩
  | cons byte text induction =>
      rcases induction with ⟨atStart, inBody⟩
      rcases List.exists_cons_of_ne_nil (List.splitOn_ne_nil 10 text) with ⟨line, lines, pieces⟩
      rw [pieces] at atStart inBody
      rw [List.splitOn_cons_eq_if_modifyHead, pieces]
      by_cases newline : byte = 10
      · subst newline
        rw [bodies_newline, bodies_newline, atStart, if_pos (by decide)]
        simp [lineBody]
      rw [if_neg (by simpa using newline)]
      by_cases blank : byte = 32
      · subst blank
        rw [bodies_blank, bodies_blank, inBody]
        simp [lineBody]
      · rw [bodies, bodies, if_neg newline, if_neg blank, if_pos rfl, if_neg newline,
          if_neg blank, if_neg (by decide), atStart, inBody]
        simp [lineBody, blank]

/-! ## What is written -/

theorem visible_of_isDigit {byte : Byte} (digit : Decimal.isDigit byte = true) :
    Visible byte := by
  refine ⟨?_, ?_, ?_⟩ <;> rintro rfl <;> revert digit <;> decide

theorem visible_ullto4Str (n : Int) : ∀ byte ∈ ullto4Str n, Visible byte := by
  intro byte member
  rcases List.mem_append.mp member with filled | spelled
  · rw [List.eq_of_mem_replicate filled]
    exact ⟨by decide, by decide, by decide⟩
  · exact visible_of_isDigit (Decimal.isDigit_of_mem_digits spelled)

theorem length_ullto4Str (n : Int) : (ullto4Str n).length ≤ 10 := by
  have small : (n % 2 ^ 32).toNat < 10 ^ 10 := by
    have bound := Int.emod_lt_of_pos n (show (0 : Int) < 2 ^ 32 by decide)
    omega
  have spelled := (Decimal.length_digits_le_iff (by decide)).mpr small
  simp only [ullto4Str, List.length_append, List.length_replicate]
  omega

theorem g_szchar_digits (byte : Byte) :
    g_szchar.getD ((byte >>> 4) &&& 15).toNat 0 = hexDigit (byte.toNat / 16) ∧
      g_szchar.getD (byte &&& 15).toNat 0 = hexDigit (byte.toNat % 16) := by
  revert byte
  exact forall_byte (by decide +kernel)

theorem visible_hexDigit {value : Nat} (small : value < 16) : Visible (hexDigit value) := by
  have all : ∀ value : Fin 16, Visible (hexDigit value) := by
    unfold Visible
    decide
  exact all ⟨value, small⟩

def filled (size : Nat) (text : Bytes) : Bytes :=
  text ++ List.replicate (size - text.length) 0

theorem length_filled {size : Nat} {text : Bytes} (fits : text.length ≤ size) :
    (filled size text).length = size := by
  simp only [filled, List.length_append, List.length_replicate]
  omega

theorem store_filled {size : Nat} {text bytes : Bytes}
    (fits : text.length + bytes.length ≤ size) :
    store (filled size text) text.length bytes = some (filled size (text ++ bytes)) := by
  have inMemory := length_filled (show text.length ≤ size by omega)
  rw [store, if_pos (by omega), Bytes.overwrite, filled, List.take_left, List.drop_append,
    List.drop_replicate, filled, List.length_append]
  have behind : text.drop (text.length + bytes.length) = [] :=
    List.drop_eq_nil_of_le (by omega)
  have zeros : size - text.length - (text.length + bytes.length - text.length) =
      size - (text.length + bytes.length) := by omega
  rw [behind, zeros, List.nil_append]

theorem filled_zero {size : Nat} {text : Bytes} (room : text.length < size) :
    filled size (text ++ [0]) = filled size text := by
  have zeros : size - text.length = (size - (text ++ [0]).length) + 1 := by
    simp only [List.length_append, List.length_singleton]
    omega
  rw [filled, filled, zeros, List.replicate_succ, List.append_assoc]
  rfl

theorem cString_filled {size : Nat} {text : Bytes} (noZero : 0 ∉ text) :
    cString (filled size text) = text := by
  rw [cString, filled, List.takeWhile_append_of_pos (decide_ne_of_not_mem noZero),
    List.takeWhile_replicate]
  simp

def formed (size : Nat) (text : Bytes) (headlen : Nat) (index : Int) : FormState :=
  ⟨filled size text, text.length, headlen, index⟩

theorem put_formed {size : Nat} {text : Bytes} {headlen : Nat} {index : Int} (character : Byte)
    (room : text.length < size) :
    (formed size text headlen index).put character =
      some (formed size (text ++ [character]) headlen index) := by
  simp only [FormState.put, formed]
  rw [store_filled (by simpa using Nat.succ_le_of_lt room), Option.map_some, List.length_append]
  rfl

def headText (lsize : Nat) (index : Int) : Bytes :=
  (if lsize = 0 then [] else [10]) ++ ullto4Str index ++ [32]

theorem length_headText (lsize : Nat) (index : Int) : (headText lsize index).length ≤ 12 := by
  have digits := length_ullto4Str index
  simp only [headText, List.length_append, List.length_singleton]
  split <;> simp only [List.length_nil, List.length_singleton] <;> omega

theorem noZero_headText (lsize : Nat) (index : Int) : 0 ∉ headText lsize index := by
  intro member
  simp only [headText, List.mem_append] at member
  rcases member with (newline | digit) | blank
  · revert newline
    split <;> decide
  · exact (visible_ullto4Str index 0 digit).1 rfl
  · revert blank
    decide

theorem putHead_formed {size lsize : Nat} {text : Bytes} {headlen : Nat} {index : Int}
    (first : headlen = 0 ↔ lsize = 0) (noZero : 0 ∉ text) (room : text.length + 13 ≤ size) :
    ∃ headlen' index', headlen' ≠ 0 ∧ (formed size text headlen index).putHead =
      some (formed size (text ++ headText lsize index) headlen' index') := by
  have digits := length_ullto4Str index
  have whole : (ullto4Str index).take 64 = ullto4Str index :=
    List.take_of_length_le (by omega)
  -- The line behind, and the index that `strcat` appends to it.
  have line : (if headlen ≠ 0 then (formed size text headlen index).put 10
        else some (formed size text headlen index)) =
      some (formed size (text ++ if lsize = 0 then [] else [10]) headlen index) := by
    by_cases atFront : lsize = 0
    · rw [if_neg (not_not.mpr (first.mpr atFront)), if_pos atFront, List.append_nil]
    · rw [if_pos (fun zero => atFront (first.mp zero)), if_neg atFront,
        put_formed 10 (by omega)]
  simp only [FormState.putHead]
  change ∃ headlen' index', headlen' ≠ 0 ∧ Option.bind (if headlen ≠ 0 then _ else _) _ = _
  rw [line, Option.bind_some]
  generalize opened : (text ++ if lsize = 0 then [] else [10]) = before
  have lengths : before.length ≤ text.length + 1 := by
    rw [← opened, List.length_append]
    split <;> simp
  have clean : 0 ∉ before := by
    rw [← opened, List.mem_append, not_or]
    refine ⟨noZero, ?_⟩
    split <;> decide
  have joined : text ++ headText lsize index = before ++ (ullto4Str index ++ [32]) := by
    rw [← opened, headText, List.append_assoc, List.append_assoc]
  simp only [formed]
  rw [whole, cString_filled clean, store_filled (by simp; omega), ← List.append_assoc,
    filled_zero (by simp; omega), Option.map_some, joined]
  refine ⟨(ullto4Str index ++ [32]).length, signed 32 (index + 1), ?_, ?_⟩
  · simp
  · have length : (before ++ (ullto4Str index ++ [32])).length =
        before.length + (ullto4Str index ++ [32]).length := List.length_append
    rw [length]

def turnText (lsize : Nat) (index : Int) (byte : Byte) : Bytes :=
  (if lsize % 32 = 0 then headText lsize index else []) ++
    (if lsize % 16 = 0 then [32] else []) ++
    [hexDigit (byte.toNat / 16), hexDigit (byte.toNat % 16)]

theorem length_turnText (lsize : Nat) (index : Int) (byte : Byte) :
    (turnText lsize index byte).length ≤
      (if lsize % 32 = 0 then 12 else 0) + (if lsize % 16 = 0 then 1 else 0) + 2 := by
  have head := length_headText lsize index
  simp only [turnText, List.length_append]
  split <;> split <;> simp only [List.length_nil, List.length_cons] <;> omega

theorem noZero_turnText (lsize : Nat) (index : Int) (byte : Byte) :
    0 ∉ turnText lsize index byte := by
  have high := (visible_hexDigit (show byte.toNat / 16 < 16 by have := byte.toNat_lt; omega)).1
  have low := (visible_hexDigit (show byte.toNat % 16 < 16 by omega)).1
  have head := noZero_headText lsize index
  simp only [turnText, List.mem_append, List.mem_cons, List.not_mem_nil, or_false, not_or]
  refine ⟨⟨?_, ?_⟩, high.symm, low.symm⟩
  · split
    · exact head
    · exact List.not_mem_nil
  · split <;> decide

theorem bodies_turnText (lsize : Nat) (index : Int) (byte : Byte) (text : Bytes) :
    bodies (decide (lsize = 0)) (turnText lsize index byte ++ text) =
      hexDigit (byte.toNat / 16) :: hexDigit (byte.toNat % 16) :: bodies false text := by
  have high := visible_hexDigit (show byte.toNat / 16 < 16 by have := byte.toNat_lt; omega)
  have low := visible_hexDigit (show byte.toNat % 16 < 16 by omega)
  have digits : bodies false (((if lsize % 16 = 0 then [32] else []) ++
        [hexDigit (byte.toNat / 16), hexDigit (byte.toNat % 16)]) ++ text) =
      hexDigit (byte.toNat / 16) :: hexDigit (byte.toNat % 16) :: bodies false text := by
    split
    · simp only [List.cons_append, List.nil_append]
      rw [bodies_blank, bodies_digit high, bodies_digit low]
    · simp only [List.cons_append, List.nil_append]
      rw [bodies_digit high, bodies_digit low]
  rw [turnText, List.append_assoc, List.append_assoc, ← List.append_assoc _ _ text, ← digits]
  by_cases atLine : lsize % 32 = 0
  · rw [if_pos atLine, headText, List.append_assoc, List.append_assoc, List.singleton_append]
    by_cases first : lsize = 0
    · rw [if_pos first, decide_eq_true first, List.nil_append,
        bodies_index (visible_ullto4Str index)]
    · rw [if_neg first, List.singleton_append, bodies_newline,
        bodies_index (visible_ullto4Str index)]
  · have later : lsize ≠ 0 := by
      rintro rfl
      exact atLine rfl
    rw [if_neg atLine, decide_eq_false later, List.nil_append]

theorem putByte_formed {size lsize : Nat} {text : Bytes} {headlen : Nat} {index : Int}
    (byte : Byte) (first : headlen = 0 ↔ lsize = 0) (noZero : 0 ∉ text)
    (room : text.length + 15 ≤ size) :
    ∃ headlen' index', headlen' ≠ 0 ∧ (formed size text headlen index).putByte lsize byte =
      some (formed size (text ++ turnText lsize index byte) headlen' index') := by
  have length := length_headText lsize index
  have opened : ∃ headlen' index', headlen' ≠ 0 ∧
      (if lsize % 32 = 0 then (formed size text headlen index).putHead
        else some (formed size text headlen index)) =
      some (formed size (text ++ if lsize % 32 = 0 then headText lsize index else [])
        headlen' index') := by
    by_cases atLine : lsize % 32 = 0
    · simp only [if_pos atLine]
      exact putHead_formed first noZero (by omega)
    · simp only [if_neg atLine, List.append_nil]
      refine ⟨headlen, index, fun zero => atLine ?_, rfl⟩
      rw [first.mp zero]
  rcases opened with ⟨headlen', index', nonzero, head⟩
  refine ⟨headlen', index', nonzero, ?_⟩
  rw [FormState.putByte, head, Option.bind_some, turnText, ← List.append_assoc,
    ← List.append_assoc]
  have short : (text ++ if lsize % 32 = 0 then headText lsize index else []).length ≤
      text.length + 12 := by
    rw [List.length_append]
    split
    · omega
    · exact Nat.add_le_add_left (Nat.zero_le 12) text.length
  generalize (text ++ if lsize % 32 = 0 then headText lsize index else []) = line at short
  have blank : (if lsize % 16 = 0 ∧ (formed size line headlen' index').headlen ≠ 0 then
        (formed size line headlen' index').put 32 else some (formed size line headlen' index')) =
      some (formed size (line ++ if lsize % 16 = 0 then [32] else []) headlen' index') := by
    by_cases atBlank : lsize % 16 = 0
    · rw [if_pos ⟨atBlank, nonzero⟩, if_pos atBlank, put_formed 32 (by omega)]
    · rw [if_neg (fun both => atBlank both.1), if_neg atBlank, List.append_nil]
  have shorter : (line ++ if lsize % 16 = 0 then [32] else []).length ≤ text.length + 13 := by
    rw [List.length_append]
    split <;> simp only [List.length_nil, List.length_singleton] <;> omega
  rw [blank, Option.bind_some, (g_szchar_digits byte).1, (g_szchar_digits byte).2]
  generalize (line ++ if lsize % 16 = 0 then [32] else []) = line at shorter
  rw [put_formed _ (by omega), Option.bind_some, put_formed _ (by simp; omega),
    List.append_assoc]
  rfl

/-- As many bytes as the text can have where so many bytes of the buffer have been formed. -/
def room (lsize : Nat) : Nat := 2 * lsize + (lsize + 15) / 16 + 12 * ((lsize + 31) / 32)

theorem room_succ (lsize : Nat) :
    room lsize + ((if lsize % 32 = 0 then 12 else 0) + (if lsize % 16 = 0 then 1 else 0) + 2) =
      room (lsize + 1) := by
  unfold room
  split <;> split <;> omega

theorem room_le {lsize : Nat} (inChunk : lsize ≤ PRINTSIZE) : room lsize ≤ 1248 := by
  change lsize ≤ 512 at inChunk
  unfold room
  omega

theorem formLoop_formed {buffer : Bytes} {lsize : Nat} {text : Bytes} {headlen : Nat}
    {index : Int} (inChunk : lsize + buffer.length ≤ PRINTSIZE)
    (first : headlen = 0 ↔ lsize = 0) (noZero : 0 ∉ text) (short : text.length ≤ room lsize) :
    ∃ more headlen' index',
      formLoop buffer lsize (formed (PRINTSIZE * 3 + 8) text headlen index) =
        some (formed (PRINTSIZE * 3 + 8) (text ++ more) headlen' index') ∧
      0 ∉ text ++ more ∧ (text ++ more).length ≤ 1248 ∧
      ∀ rest, bodies (decide (lsize = 0)) (more ++ 10 :: rest) =
        lowerHex buffer ++ bodies true rest := by
  induction buffer generalizing lsize text headlen index with
  | nil =>
      have bound := room_le (show lsize ≤ PRINTSIZE by simpa using inChunk)
      refine ⟨[], headlen, index, ?_, ?_, ?_, fun rest => ?_⟩
      · rw [formLoop, List.append_nil]
      · rwa [List.append_nil]
      · rw [List.append_nil]
        omega
      · exact bodies_newline _ rest
  | cons byte buffer induction =>
      rw [List.length_cons] at inChunk
      have bound := room_le (show lsize ≤ PRINTSIZE by omega)
      have size : PRINTSIZE * 3 + 8 = 1544 := rfl
      have fits : text.length + 15 ≤ PRINTSIZE * 3 + 8 := by omega
      rcases @putByte_formed _ lsize text headlen index byte first noZero fits with
        ⟨headlen', index', nonzero, turn⟩
      have length := length_turnText lsize index byte
      have total := room_succ lsize
      have clean : 0 ∉ text ++ turnText lsize index byte := by
        rw [List.mem_append, not_or]
        exact ⟨noZero, noZero_turnText lsize index byte⟩
      have head : headlen' = 0 ↔ lsize + 1 = 0 :=
        iff_of_false nonzero (Nat.succ_ne_zero lsize)
      have short' : (text ++ turnText lsize index byte).length ≤ room (lsize + 1) := by
        rw [List.length_append]
        omega
      rcases @induction (lsize + 1) (text ++ turnText lsize index byte) headlen' index'
        (by omega) head clean short' with
        ⟨more, headlen'', index'', loop, noZeroMore, shortMore, read⟩
      rw [List.append_assoc] at loop noZeroMore shortMore
      refine ⟨turnText lsize index byte ++ more, headlen'', index'', ?_, noZeroMore, shortMore,
        fun rest => ?_⟩
      · have inMemory : (formed (PRINTSIZE * 3 + 8) text headlen index).szbuf.length =
            PRINTSIZE * 3 + 8 := length_filled (by omega)
        have guarded : (formed (PRINTSIZE * 3 + 8) text headlen index).len + 10 <
            (formed (PRINTSIZE * 3 + 8) text headlen index).szbuf.length := by
          rw [inMemory]
          change text.length + 10 < _
          omega
        rw [formLoop, if_pos guarded, turn, Option.bind_some]
        exact loop
      · have later := read rest
        rw [decide_eq_false (Nat.succ_ne_zero lsize)] at later
        rw [List.append_assoc, bodies_turnText, later]
        rfl

/-- A chunk fits into its buffer, whatever the index is. -/
theorem FormLog_reads (index : Int) {buffer : Bytes} (inChunk : buffer.length ≤ PRINTSIZE) :
    ∃ form, FormLog index (List.replicate (PRINTSIZE * 3 + 8) 0) buffer = some form ∧
      ∀ rest, bodies true (cString form.szbuf ++ rest) = lowerHex buffer ++ bodies true rest := by
  have start : (⟨List.replicate (PRINTSIZE * 3 + 8) 0, 0, 0, index⟩ : FormState) =
      formed (PRINTSIZE * 3 + 8) [] 0 index := rfl
  have whole : 0 + buffer.length ≤ PRINTSIZE := by rwa [Nat.zero_add]
  rcases @formLoop_formed buffer 0 [] 0 index whole Iff.rfl List.not_mem_nil (Nat.zero_le _) with
    ⟨text, headlen, last, loop, noZero, short, read⟩
  rw [List.nil_append] at loop noZero short
  have size : PRINTSIZE * 3 + 8 = 1544 := rfl
  have clean : 0 ∉ text ++ [10] := by
    rw [List.mem_append, not_or]
    exact ⟨noZero, by decide⟩
  refine ⟨formed (PRINTSIZE * 3 + 8) (text ++ [10] ++ [0]) headlen last, ?_, fun rest => ?_⟩
  · rw [FormLog, start, loop, Option.bind_some, put_formed 10 (by omega), Option.bind_some,
      put_formed 0 (by simp; omega)]
  · have written : (formed (PRINTSIZE * 3 + 8) (text ++ [10] ++ [0]) headlen last).szbuf =
        filled (PRINTSIZE * 3 + 8) (text ++ [10]) := filled_zero (by simp; omega)
    rw [written, cString_filled clean, List.append_assoc]
    exact read rest

theorem outputLoop_reads (index : Int) (buffer os : Bytes) :
    ∃ text, outputLoop index buffer os = some (os ++ text) ∧
      bodies true text = lowerHex buffer := by
  induction size : buffer.length using Nat.strong_induction_on generalizing index buffer os with
  | _ length induction =>
      subst size
      rw [outputLoop]
      by_cases done : buffer = []
      · subst done
        exact ⟨[], by simp, rfl⟩
      have positive := List.length_pos_iff.mpr done
      rcases FormLog_reads index (List.length_take_le PRINTSIZE buffer) with ⟨form, formLog, read⟩
      have shorter : (buffer.drop PRINTSIZE).length < buffer.length := by
        rw [List.length_drop]
        exact Nat.sub_lt positive (by decide)
      rcases induction _ shorter form.index (buffer.drop PRINTSIZE) (os ++ cString form.szbuf) rfl
        with ⟨more, loop, later⟩
      refine ⟨cString form.szbuf ++ more, ?_, ?_⟩
      · rw [if_neg (by simpa using done)]
        simp only [formLog, Option.bind_some, loop, List.append_assoc]
      · rw [read, later, lowerHex, lowerHex, ← List.flatMap_append, List.take_append_drop]
        rfl

theorem newline_not_mem_addressLine (address : Int) (size : Nat) :
    10 ∉ addressLine address size := by
  have digits : ∀ number, 10 ∉ Decimal.digits number := by
    intro number member
    exact (visible_of_isDigit (Decimal.isDigit_of_mem_digits member)).2.1 rfl
  have spelled : 10 ∉ Decimal.text address := by
    rw [Decimal.text]
    split
    · exact digits _
    · rw [List.mem_cons, not_or]
      exact ⟨by decide, digits _⟩
  have literals : 10 ∉ ascii "address[" ∧ 10 ∉ ascii "] size[" ∧ 10 ∉ ascii "] " := by decide
  simp only [addressLine, List.mem_append, not_or]
  exact ⟨⟨⟨⟨literals.1, spelled⟩, literals.2.1⟩, digits size⟩, literals.2.2⟩

/-- Every buffer is queued as its hexadecimal form, and nothing is written outside of
`szbuf`. -/
theorem OutputBinary_lowerHex (address : Int) (buffer : Bytes) :
    ∃ text, OutputBinary address buffer = some text ∧ bareText text = lowerHex buffer := by
  rcases outputLoop_reads 0 buffer (addressLine address buffer.length ++ [10]) with
    ⟨lines, loop, read⟩
  refine ⟨_, loop, ?_⟩
  rw [List.append_assoc, List.singleton_append, bareText,
    List.splitOn_append_cons_self_of_not_mem
      (newline_not_mem_addressLine address buffer.length), List.tail_cons, ← read,
    (bodies_eq lines).1]

example : bareText (ascii "address[7] size[2] \n000000  0aff\n") = lowerHex [10, 255] := by
  decide

end MyBookSources.Base.CAsyncLog
