import MyBookSources.Foundation.SelfDelimiting
import MyBookSources.Net.ProtocolStream
import Mathlib.Data.List.Induction

/-! # What is written into a protocol stream is read back

The length prefix is the base 128 encoding of the length, so a string is
self-delimiting, and each field is read back whatever follows it.
-/

namespace MyBookSources.Net

open Base128

/-! ## The length prefix -/

theorem compressGroup_encodeHigh (i : UInt32) {a : Nat} (inner : a < 5) (notLast : a ≠ 0) :
    compressGroup i (encodeHigh (i.toNat / 128 ^ (a + 1))) a =
      encodeHigh (i.toNat / 128 ^ a) := by
  have group := toNat_group i inner
  have above : i.toNat / 128 ^ a / 128 = i.toNat / 128 ^ (a + 1) := by
    rw [Nat.div_div_eq_div_mul, Nat.pow_succ]
  have zeroGroup : (i >>> UInt32.ofNat (a * 7) &&& 0x7f).toUInt8 = 0 ↔
      i.toNat / 128 ^ a % 128 = 0 := by
    rw [← UInt8.toNat_inj, group]
    rfl
  have nothingAbove : (encodeHigh (i.toNat / 128 ^ (a + 1))).length = 0 ↔
      i.toNat / 128 ^ (a + 1) = 0 := by
    rw [List.length_eq_zero_iff, encodeHigh_eq_nil_iff]
  rw [compressGroup]
  by_cases skipped : i.toNat / 128 ^ a = 0
  · have noneAbove : i.toNat / 128 ^ (a + 1) = 0 := by
      rw [← above, skipped]
    rw [if_pos ⟨zeroGroup.mpr (by rw [skipped]), nothingAbove.mpr noneAbove⟩, noneAbove,
      skipped]
  · have put : ¬ ((i >>> UInt32.ofNat (a * 7) &&& 0x7f).toUInt8 = 0 ∧
        (encodeHigh (i.toNat / 128 ^ (a + 1))).length = 0) := by
      rw [zeroGroup, nothingAbove, ← above]
      omega
    have byte : (i >>> UInt32.ofNat (a * 7) &&& 0x7f).toUInt8 ||| 0x80 =
        continued (i.toNat / 128 ^ a) := by
      apply UInt8.toNat_inj.mp
      rw [toNat_or_high (by omega), group, toNat_continued]
    rw [if_neg put, if_neg notLast, byte, encodeHigh_of_pos skipped, above]

theorem compress_eq_encode (i : UInt32) : compress i = encode i.toNat := by
  have small : i.toNat < 2 ^ 32 := i.toNat_lt
  have top : ([] : Bytes) = encodeHigh (i.toNat / 128 ^ (4 + 1)) := by
    have zero : i.toNat / 128 ^ (4 + 1) = 0 := Nat.div_eq_of_lt (by omega)
    rw [zero, encodeHigh_zero]
  have groups : [4, 3, 2, 1].foldl (compressGroup i) [] = encodeHigh (i.toNat / 128) := by
    simp only [List.foldl_cons, List.foldl_nil]
    rw [top, compressGroup_encodeHigh i (by decide) (by decide),
      compressGroup_encodeHigh i (by decide) (by decide),
      compressGroup_encodeHigh i (by decide) (by decide),
      compressGroup_encodeHigh i (by decide) (by decide), Nat.pow_one]
  have group : (i >>> UInt32.ofNat (0 * 7) &&& 0x7f).toUInt8.toNat = i.toNat % 128 := by
    rw [toNat_group i (by decide), Nat.pow_zero, Nat.div_one]
  have zeroGroup : (i >>> UInt32.ofNat (0 * 7) &&& 0x7f).toUInt8 = 0 ↔ i.toNat % 128 = 0 := by
    rw [← UInt8.toNat_inj, group]
    rfl
  have byte : (i >>> UInt32.ofNat (0 * 7) &&& 0x7f).toUInt8 &&& 0x7f = final i.toNat := by
    apply UInt8.toNat_inj.mp
    rw [toNat_and_low, group, toNat_final, Nat.mod_mod]
  have lastGroup : [4, 3, 2, 1, 0].foldl (compressGroup i) [] =
      compressGroup i (encodeHigh (i.toNat / 128)) 0 := by
    rw [← groups]
    rfl
  rw [compress, lastGroup, compressGroup, encode]
  by_cases skipped : (i >>> UInt32.ofNat (0 * 7) &&& 0x7f).toUInt8 = 0 ∧
      (encodeHigh (i.toNat / 128)).length = 0
  · have empty : encodeHigh (i.toNat / 128) = [] := List.length_eq_zero_iff.mp skipped.2
    have zero : final i.toNat = 0 := by
      apply UInt8.toNat_inj.mp
      rw [toNat_final, zeroGroup.mp skipped.1]
      rfl
    rw [if_pos skipped, empty, zero]
    rfl
  · rw [if_neg skipped, if_pos rfl, byte]
    simp

theorem uncompress_eq_decode (buf : Bytes) :
    (uncompress buf).toNat = decode buf % 2 ^ 32 := by
  induction buf using List.reverseRecOn with
  | nil => rfl
  | append_singleton buf c induction =>
      have step : uncompress (buf ++ [c]) =
          uncompress buf <<< 7 ||| (c &&& 0x7f).toUInt32 := by
        simp [uncompress]
      rw [step, toNat_shift_or, induction, decode_append_singleton]
      omega

theorem uncompress_compress (i : UInt32) : uncompress (compress i) = i := by
  apply UInt32.toNat_inj.mp
  rw [uncompress_eq_decode, compress_eq_encode, decode_encode]
  exact Nat.mod_eq_of_lt i.toNat_lt

theorem length_compress_le (i : UInt32) : (compress i).length ≤ 5 := by
  have small : i.toNat < 128 ^ (4 + 1) := Nat.lt_trans i.toNat_lt (by decide)
  rw [compress_eq_encode]
  exact length_encode_le small

/-! ## What is left to read -/

theorem length_bytesAt (memory : Nat → Byte) (start count : Nat) :
    (bytesAt memory start count).length = count := by
  simp [bytesAt]

theorem bytesAt_append (memory : Nat → Byte) (start front back : Nat) :
    bytesAt memory start (front + back) =
      bytesAt memory start front ++ bytesAt memory (start + front) back := by
  simp [bytesAt, List.range_add, List.map_append, Nat.add_assoc]

theorem bytesAt_succ (memory : Nat → Byte) (start count : Nat) :
    bytesAt memory start (count + 1) = memory start :: bytesAt memory (start + 1) count := by
  rw [Nat.add_comm count 1, bytesAt_append]
  rfl

namespace BinaryReadStream

theorem scanPrefix_eq_scan (memory : Nat → Byte) (temp room : Nat) :
    scanPrefix memory temp room = scan room (bytesAt memory temp room) := by
  induction room generalizing temp with
  | zero => rfl
  | succ room induction =>
      rw [bytesAt_succ, scanPrefix, scan, induction]
      simp only [and_high_eq_zero_iff]

/-- The reader has exactly `rest` still in front of it. -/
def Holds (stream : BinaryReadStream) (rest : Bytes) : Prop :=
  stream.len = stream.cur + rest.length ∧
    bytesAt stream.memory stream.cur rest.length = rest

variable {stream : BinaryReadStream}

theorem Holds.front {front rest : Bytes} (held : stream.Holds (front ++ rest)) :
    bytesAt stream.memory stream.cur front.length = front := by
  have spelled := held.2
  rw [List.length_append, bytesAt_append] at spelled
  exact (List.append_inj spelled (length_bytesAt _ _ _)).1

theorem Holds.advance {front rest : Bytes} (held : stream.Holds (front ++ rest)) :
    (stream.advance front.length).Holds rest := by
  have spelled := held.2
  rw [List.length_append, bytesAt_append] at spelled
  constructor
  · have counted := held.1
    rw [List.length_append] at counted
    rw [BinaryReadStream.advance, counted, Nat.add_assoc]
  · exact (List.append_inj spelled (length_bytesAt _ _ _)).2

theorem Holds.fits {front rest : Bytes} (held : stream.Holds (front ++ rest)) :
    ¬ stream.len < stream.cur + front.length := by
  have counted := held.1
  rw [List.length_append] at counted
  omega

/-! ## Reading one field -/

theorem readValue_held {front rest : Bytes} {VALUE_SIZE : Nat}
    (size : front.length = VALUE_SIZE) (held : stream.Holds (front ++ rest)) :
    (stream.readValue VALUE_SIZE).result = some front ∧
      (stream.readValue VALUE_SIZE).stream.Holds rest := by
  rw [← size, readValue, if_neg held.fits, held.front]
  exact ⟨rfl, held.advance⟩

theorem readLengthWithoutOffset_held {i : UInt32} {rest : Bytes}
    (held : stream.Holds (compress i ++ rest)) :
    stream.readLengthWithoutOffset.result = some ((compress i).length, i.toNat) := by
  have scanned : scanPrefix stream.memory stream.cur 5 = compress i := by
    have room : 5 = (compress i).length + (5 - (compress i).length) := by
      have short := length_compress_le i
      omega
    rw [scanPrefix_eq_scan]
    nth_rewrite 2 [room]
    rw [bytesAt_append, held.front, compress_eq_encode]
    apply scan_encode
    rw [← compress_eq_encode]
    exact length_compress_le i
  rw [readLengthWithoutOffset]
  dsimp only
  rw [scanned, if_neg held.fits, uncompress_compress]

theorem locateField_held {str rest : Bytes} (refuses : Nat → Bool)
    (short : str.length < 2 ^ 32) (accepted : refuses str.length = false)
    (held : stream.Holds (compress (UInt32.ofNat str.length) ++ (str ++ rest))) :
    let located := stream.advance (compress (UInt32.ofNat str.length)).length
    (stream.locateField refuses).result = some (located.cur, str.length) ∧
      (stream.locateField refuses).stream = located.advance str.length := by
  have size : (UInt32.ofNat str.length).toNat = str.length := by
    rw [UInt32.toNat_ofNat', Nat.mod_eq_of_lt short]
  have prefixed := readLengthWithoutOffset_held held
  rw [size] at prefixed
  have fits := held.advance.fits
  rw [locateField]
  simp [prefixed, accepted, if_neg fits]

theorem copyField_held {str rest : Bytes} (refuses : Nat → Bool)
    (short : str.length < 2 ^ 32) (accepted : refuses str.length = false)
    (held : stream.Holds (compress (UInt32.ofNat str.length) ++ (str ++ rest))) :
    (copyField (stream.locateField refuses)).result = some str ∧
      (copyField (stream.locateField refuses)).stream.Holds rest := by
  rcases locateField_held refuses short accepted held with ⟨located, moved⟩
  have behind := held.advance
  have copied := behind.front
  rw [copyField, located]
  dsimp only
  rw [moved]
  constructor
  · exact congrArg some copied
  · exact behind.advance

end BinaryReadStream

/-! ## Sequences of fields -/

inductive FieldKind
  | char
  | short
  | int32
  | string (maxlen : Nat)
  | cString (strlen : Nat)
  deriving DecidableEq

namespace FieldKind

/-- Reads one field, none where the call returns false. -/
def read (stream : BinaryReadStream) : FieldKind → Option (Field × BinaryReadStream)
  | .char => stream.readChar.result.map fun c => (.char c, stream.readChar.stream)
  | .short => stream.readShort.result.map fun i => (.short i, stream.readShort.stream)
  | .int32 => stream.readInt32.result.map fun i => (.int32 i, stream.readInt32.stream)
  | .string maxlen =>
      (stream.readString maxlen).result.map fun str =>
        (.string str, (stream.readString maxlen).stream)
  | .cString strlen =>
      (stream.readCString strlen).result.map fun str =>
        (.string str, (stream.readCString strlen).stream)

end FieldKind

namespace Field

def encode : Field → Bytes
  | .char c => [c]
  | .short i => BigEndian.encode 2 i.toNat
  | .int32 i => BigEndian.encode 4 i.toNat
  | .string str => compress (UInt32.ofNat str.length) ++ str

/-- The field is of this kind, and a string is shorter than `2 ^ 32` bytes and has
room in the buffer of the caller. -/
inductive Fits : Field → FieldKind → Prop
  | char (c : Byte) : Fits (.char c) .char
  | short (i : BitVec 16) : Fits (.short i) .short
  | int32 (i : BitVec 32) : Fits (.int32 i) .int32
  | string (str : Bytes) : str.length < 2 ^ 32 → Fits (.string str) (.string 0)
  | cString (str : Bytes) (strlen : Nat) : str.length < 2 ^ 32 → str.length ≤ strlen →
      Fits (.string str) (.cString strlen)

end Field

/-- Each field is read back whatever follows it. -/
theorem FieldKind.read_encoded {stream : BinaryReadStream} {field : Field} {kind : FieldKind}
    {rest : Bytes} (fitting : field.Fits kind) (held : stream.Holds (field.encode ++ rest)) :
    ∃ next, kind.read stream = some (field, next) ∧ next.Holds rest := by
  cases fitting with
  | char c =>
      have size : (Field.char c).encode.length = 1 := rfl
      rcases BinaryReadStream.readValue_held size held with ⟨result, remaining⟩
      have value : UInt8.ofNat (BigEndian.decode (Field.char c).encode) = c := by
        simp [BigEndian.decode, Field.encode]
      apply Exists.intro (stream.readValue 1).stream
      constructor
      · simp [read, BinaryReadStream.readChar, ReadOutcome.map, result, value]
      · exact remaining
  | short i =>
      rcases BinaryReadStream.readValue_held (BigEndian.length_encode 2 i.toNat) held with
        ⟨result, remaining⟩
      have value : BitVec.ofNat 16 (BigEndian.decode (BigEndian.encode 2 i.toNat)) = i := by
        rw [BigEndian.decode_encode i.isLt, BitVec.ofNat_toNat, BitVec.setWidth_eq]
      apply Exists.intro (stream.readValue 2).stream
      constructor
      · simp [read, BinaryReadStream.readShort, ReadOutcome.map, result, value]
      · exact remaining
  | int32 i =>
      rcases BinaryReadStream.readValue_held (BigEndian.length_encode 4 i.toNat) held with
        ⟨result, remaining⟩
      have value : BitVec.ofNat 32 (BigEndian.decode (BigEndian.encode 4 i.toNat)) = i := by
        rw [BigEndian.decode_encode i.isLt, BitVec.ofNat_toNat, BitVec.setWidth_eq]
      apply Exists.intro (stream.readValue 4).stream
      constructor
      · simp [read, BinaryReadStream.readInt32, ReadOutcome.map, result, value]
      · exact remaining
  | string str short =>
      rw [Field.encode, List.append_assoc] at held
      rcases BinaryReadStream.copyField_held
        (fun fieldlen => (0 : Nat) ≠ 0 && 0 < fieldlen) short rfl held with ⟨result, remaining⟩
      apply Exists.intro (stream.readString 0).stream
      constructor
      · rw [read, BinaryReadStream.readString, result]
        rfl
      · exact remaining
  | cString str strlen short room =>
      have accepted : decide (strlen < str.length) = false := decide_eq_false (Nat.not_lt.mpr room)
      rw [Field.encode, List.append_assoc] at held
      rcases BinaryReadStream.copyField_held
        (fun fieldlen => strlen < fieldlen) short accepted held with ⟨result, remaining⟩
      apply Exists.intro (stream.readCString strlen).stream
      constructor
      · rw [read, BinaryReadStream.readCString, result]
        rfl
      · exact remaining

namespace BinaryWriteStream

theorem writeField_data (stream : BinaryWriteStream) (field : Field) :
    (stream.writeField field).data = stream.data ++ field.encode := by
  cases field with
  | char c => rfl
  | short i => rfl
  | int32 i => rfl
  | string str =>
      rw [writeField, writeString, writeCString, append, append, Field.encode,
        List.append_assoc]

theorem writeFields_data (stream : BinaryWriteStream) (fields : List Field) :
    (stream.writeFields fields).data = stream.data ++ fields.flatMap Field.encode := by
  induction fields generalizing stream with
  | nil => simp [writeFields]
  | cons field fields induction =>
      have rest := induction (stream.writeField field)
      rw [writeField_data, List.append_assoc] at rest
      rw [writeFields, List.foldl_cons, List.flatMap_cons]
      exact rest

theorem length_create (str : Fin (BINARY_PACKLEN_LEN_2 + CHECKSUM_LEN) → Byte) :
    (create str).data.length = 6 := List.length_ofFn

end BinaryWriteStream

/-- The bytes of a whole stream after `Flush`. -/
def packed (str : Fin (BINARY_PACKLEN_LEN_2 + CHECKSUM_LEN) → Byte) (fields : List Field) :
    Bytes :=
  ((BinaryWriteStream.create str).writeFields fields).flush.data

/-- A reader over `data`, where `beyond` is the memory behind it. -/
def BinaryReadStream.reading (data : Bytes) (beyond : Nat → Byte) : BinaryReadStream :=
  create (fun position => (data[position]?).getD (beyond position)) data.length

/-- A flushed stream is a header that starts with its length, and then the fields. -/
theorem packed_eq (str : Fin (BINARY_PACKLEN_LEN_2 + CHECKSUM_LEN) → Byte)
    (fields : List Field) : ∃ checksum : Bytes, checksum.length = CHECKSUM_LEN ∧
      packed str fields = BigEndian.encode 4 ((packed str fields).length % 2 ^ 32) ++
        (checksum ++ fields.flatMap Field.encode) := by
  have header := BinaryWriteStream.length_create str
  have written := BinaryWriteStream.writeFields_data (.create str) fields
  have size : (packed str fields).length =
      ((BinaryWriteStream.create str).writeFields fields).data.length := by
    apply Bytes.length_overwrite
    rw [BigEndian.length_encode, written, List.length_append, header]
    omega
  apply Exists.intro ((BinaryWriteStream.create str).data.drop 4)
  constructor
  · rw [List.length_drop, header]
    rfl
  · rw [size, packed, BinaryWriteStream.flush, Bytes.overwrite, BigEndian.length_encode, written,
      List.drop_append_of_le_length (by omega)]
    rfl

theorem BinaryReadStream.holds_reading {data front rest : Bytes} (beyond : Nat → Byte)
    (split : data = front ++ rest) (header : front.length = 6) :
    (BinaryReadStream.reading data beyond).Holds rest := by
  constructor
  · rw [split, reading, create, List.length_append, header]
    rfl
  · apply List.ext_getElem
    · exact length_bytesAt _ _ _
    · intro index inBytes inRest
      have position : data[6 + index]? = some rest[index] := by
        rw [split, List.getElem?_append_right (by omega), header, Nat.add_sub_cancel_left,
          List.getElem?_eq_getElem inRest]
      simp only [bytesAt, List.getElem_map, List.getElem_range]
      change (data[6 + index]?).getD (beyond (6 + index)) = rest[index]
      rw [position]
      rfl

theorem decode_packed (str : Fin (BINARY_PACKLEN_LEN_2 + CHECKSUM_LEN) → Byte)
    (fields : List Field) :
    BigEndian.decode ((packed str fields).take 4) = (packed str fields).length % 2 ^ 32 := by
  rcases packed_eq str fields with ⟨checksum, _, split⟩
  have small : (packed str fields).length % 2 ^ 32 < 256 ^ 4 := Nat.mod_lt _ (by decide)
  have header : (packed str fields).take 4 =
      BigEndian.encode 4 ((packed str fields).length % 2 ^ 32) := by
    rw [split, List.take_left' (BigEndian.length_encode 4 _), ← split]
  rw [header, BigEndian.decode_encode small]

/-- A reader over a flushed stream gives back the fields that were written, at every
step and to the end, and the stream starts with its length modulo `2 ^ 32`. -/
theorem readSequence_packed (str : Fin (BINARY_PACKLEN_LEN_2 + CHECKSUM_LEN) → Byte)
    (beyond : Nat → Byte) (fields : List Field) (kinds : List FieldKind)
    (matching : List.Forall₂ Field.Fits fields kinds) :
    (∃ last, readSequence FieldKind.read
        (BinaryReadStream.reading (packed str fields) beyond) kinds = some (fields, last) ∧
      last.isEnd = some true) ∧
    BigEndian.decode ((packed str fields).take 4) = (packed str fields).length % 2 ^ 32 := by
  rcases packed_eq str fields with ⟨checksum, checksumLength, split⟩
  constructor
  · have front : (BigEndian.encode 4 ((packed str fields).length % 2 ^ 32) ++
        checksum).length = 6 := by
      rw [List.length_append, BigEndian.length_encode, checksumLength]
      rfl
    rw [← List.append_assoc] at split
    have held := BinaryReadStream.holds_reading beyond split front
    rw [← List.append_nil (fields.flatMap Field.encode)] at held
    have each : ∀ stream field kind rest, Field.Fits field kind →
        stream.Holds (field.encode ++ rest) →
        ∃ next, FieldKind.read stream kind = some (field, next) ∧ next.Holds rest := by
      intro stream field kind rest fitting remaining
      exact FieldKind.read_encoded fitting remaining
    rcases readSequence_encoded each matching held with ⟨last, reads, ended⟩
    apply Exists.intro last
    constructor
    · exact reads
    · have reached : last.len = last.cur := ended.1
      simp [BinaryReadStream.isEnd, reached]
  · exact decode_packed str fields

/-- One of each kind, the string read in both ways. -/
theorem readSequence_packed_each : ∃ last,
    readSequence FieldKind.read (BinaryReadStream.reading (packed (fun _ => 0xCC)
      [.char 0xFF, .short 0x8001, .int32 7, .string (ascii "ab"), .string []])
      fun _ => 0) [.char, .short, .int32, .string 0, .cString 8] =
      some ([.char 0xFF, .short 0x8001, .int32 7, .string (ascii "ab"), .string []], last) ∧
    last.isEnd = some true := by
  have text : (ascii "ab").length < 2 ^ 32 := by decide
  have matching : List.Forall₂ Field.Fits
      [.char 0xFF, .short 0x8001, .int32 7, .string (ascii "ab"), .string []]
      [.char, .short, .int32, .string 0, .cString 8] := by
    apply List.Forall₂.cons (.char _)
    apply List.Forall₂.cons (.short _)
    apply List.Forall₂.cons (.int32 _)
    apply List.Forall₂.cons (.string _ text)
    apply List.Forall₂.cons (.cString _ 8 (by decide) (by decide))
    exact .nil
  exact (readSequence_packed (fun _ => 0xCC) (fun _ => 0) _ _ matching).1

theorem length_packed_ge (str : Fin (BINARY_PACKLEN_LEN_2 + CHECKSUM_LEN) → Byte)
    (text : Bytes) : 6 + text.length ≤ (packed str [Field.string text]).length := by
  rcases packed_eq str [Field.string text] with ⟨checksum, checksumLength, split⟩
  rw [split]
  simp only [List.length_append, BigEndian.length_encode, checksumLength, CHECKSUM_LEN,
    List.flatMap_cons, List.flatMap_nil, Field.encode]
  omega

/-- A string of `2 ^ 32 - 1` bytes makes a stream whose first four bytes are not its
length. -/
theorem packed_length_wraps :
    List.Forall₂ Field.Fits [.string (List.replicate (2 ^ 32 - 1) 0)] [.string 0] ∧
    BigEndian.decode ((packed (fun _ => 0)
        [.string (List.replicate (2 ^ 32 - 1) 0)]).take 4) ≠
      (packed (fun _ => 0) [.string (List.replicate (2 ^ 32 - 1) 0)]).length := by
  have size : (List.replicate (2 ^ 32 - 1) (0 : Byte)).length = 2 ^ 32 - 1 :=
    List.length_replicate
  generalize List.replicate (2 ^ 32 - 1) (0 : Byte) = text at size ⊢
  constructor
  · exact .cons (.string text (by omega)) .nil
  · have total := length_packed_ge (fun _ => 0) text
    rw [decode_packed]
    omega

end MyBookSources.Net
