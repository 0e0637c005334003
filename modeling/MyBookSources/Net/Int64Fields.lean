import MyBookSources.Foundation.Decimal
import MyBookSources.Net.ProtocolStreamRoundTrip
import Mathlib.Data.List.Forall2

/-! # Fields of 64 bits

`WriteInt64` sends a number as decimal text without a final zero. `ReadInt64` copies the
text over the front of an array that was never set and gives the array to `atoll`, so the
old content of the array takes part in what is read.
-/

namespace MyBookSources.Net

/-- `strlen` finds the end of what `sprintf` has printed. -/
def BinaryWriteStream.writeInt64 (stream : BinaryWriteStream) (value : BitVec 64)
    (isNULL : Bool) : BinaryWriteStream :=
  stream.writeCString (if isNULL then [] else Decimal.text value.toInt)

/-- `int64str` is the content of the local array before the call. The value is none where
`atoll` reads on behind the array. -/
def BinaryReadStream.readInt64 (stream : BinaryReadStream) (int64str : Fin 128 → Byte) :
    ReadOutcome (Option Int) :=
  let copied := stream.readCString 128
  ⟨copied.result.map fun str => Decimal.atoll (Bytes.overwrite (List.ofFn int64str) 0 str), none,
    copied.stream, copied.touched⟩

/-! ## The fields around it -/

/-- A field of a stream; a field of 64 bits is none where it is null. -/
inductive Item
  | plain (field : Field)
  | int64 (value : Option (BitVec 64))

/-- How an item is read, for 64 bits with the content that the array has then. -/
inductive Reading
  | plain (kind : FieldKind)
  | int64 (int64str : Fin 128 → Byte)

namespace BinaryWriteStream

variable (stream : BinaryWriteStream)

def writeItem : Item → BinaryWriteStream
  | .plain field => stream.writeField field
  | .int64 (some value) => stream.writeInt64 value false
  | .int64 none => stream.writeInt64 0 true

def writeItems (items : List Item) : BinaryWriteStream := items.foldl writeItem stream

theorem writeInt32_null (i : BitVec 32) :
    stream.writeInt32 i true = stream.writeField (.int32 0xFFC99A3B) := by
  have bytes : (BigEndian.encode 4 999999999).reverse = BigEndian.encode 4 0xFFC99A3B := by
    decide
  exact congrArg stream.append bytes

theorem writeShort_null (i : BitVec 16) :
    stream.writeShort i true = stream.writeField (.short 0) := rfl

theorem writeChar_null (c : Byte) : stream.writeChar c true = stream.writeField (.char 0) := rfl

end BinaryWriteStream

/-- The bytes of a whole stream after `Flush`. -/
def packedItems (str : Fin (BINARY_PACKLEN_LEN_2 + CHECKSUM_LEN) → Byte) (items : List Item) :
    Bytes :=
  ((BinaryWriteStream.create str).writeItems items).flush.data

namespace Reading

/-- The stream behind the item, none where the call returns false. -/
def pass (stream : BinaryReadStream) : Reading → Option BinaryReadStream
  | .plain kind => (kind.read stream).map Prod.snd
  | .int64 int64str =>
      (stream.readInt64 int64str).result.map fun _ => (stream.readInt64 int64str).stream

def passAll : BinaryReadStream → List Reading → Option BinaryReadStream
  | stream, [] => some stream
  | stream, reading :: readings => (reading.pass stream).bind fun next => passAll next readings

end Reading

/-- What `ReadInt64` gives behind the items that are read first: none where a call returns
false. -/
def readInt64After (stream : BinaryReadStream) (readings : List Reading)
    (int64str : Fin 128 → Byte) : Option (Option Int) :=
  (Reading.passAll stream readings).bind fun reached => (reached.readInt64 int64str).result

namespace Item

/-- An item is read with the call for it, and a string has room. -/
inductive Fits : Item → Reading → Prop
  | plain {field : Field} {kind : FieldKind} : field.Fits kind → Fits (.plain field) (.plain kind)
  | int64 (value : Option (BitVec 64)) (int64str : Fin 128 → Byte) :
      Fits (.int64 value) (.int64 int64str)

def text : Option (BitVec 64) → Bytes
  | some value => Decimal.text value.toInt
  | none => []

def field : Item → Field
  | .plain field => field
  | .int64 value => .string (text value)

theorem length_text (value : Option (BitVec 64)) : (text value).length ≤ 20 := by
  cases value with
  | none => exact Nat.zero_le _
  | some value => exact Decimal.length_text_le (BitVec.le_toInt value) (BitVec.toInt_lt)

end Item

/-- `ReadInt64` passes a field of 64 bits like a string. -/
def Reading.kind : Reading → FieldKind
  | .plain kind => kind
  | .int64 _ => .cString 128

theorem Item.Fits.field {item : Item} {reading : Reading} (fits : item.Fits reading) :
    item.field.Fits reading.kind := by
  cases fits with
  | plain fits => exact fits
  | int64 value int64str =>
      have short := Item.length_text value
      exact .cString _ _ (by omega) (by omega)

theorem BinaryWriteStream.writeItem_eq (stream : BinaryWriteStream) (item : Item) :
    stream.writeItem item = stream.writeField item.field := by
  cases item with
  | plain field => rfl
  | int64 value =>
      cases value with
      | none => rfl
      | some value => rfl

theorem packedItems_eq (str : Fin (BINARY_PACKLEN_LEN_2 + CHECKSUM_LEN) → Byte)
    (items : List Item) : packedItems str items = packed str (items.map Item.field) := by
  have written : ∀ stream : BinaryWriteStream,
      stream.writeItems items = stream.writeFields (items.map Item.field) := by
    intro stream
    rw [BinaryWriteStream.writeItems, BinaryWriteStream.writeFields, List.foldl_map]
    congr
    funext stream item
    exact stream.writeItem_eq item
  rw [packedItems, written]
  rfl

theorem Reading.pass_eq (stream : BinaryReadStream) (reading : Reading) :
    reading.pass stream = (reading.kind.read stream).map Prod.snd := by
  cases reading with
  | plain kind => rfl
  | int64 int64str =>
      rw [pass, kind, FieldKind.read, BinaryReadStream.readInt64, Option.map_map, Option.map_map]
      rfl

theorem Reading.passAll_eq (stream : BinaryReadStream) (readings : List Reading) :
    passAll stream readings =
      (readSequence FieldKind.read stream (readings.map kind)).map Prod.snd := by
  induction readings generalizing stream with
  | nil => rfl
  | cons reading readings induction =>
      rw [passAll, pass_eq, List.map_cons, readSequence]
      cases reading.kind.read stream with
      | none => rfl
      | some first => simp [induction, Function.comp_def]

/-! ## What the array decides -/

theorem BinaryReadStream.readInt64_held {stream : BinaryReadStream}
    {value : Option (BitVec 64)} {rest : Bytes}
    (held : stream.Holds ((Item.int64 value).field.encode ++ rest)) (int64str : Fin 128 → Byte) :
    (stream.readInt64 int64str).result =
      some (Decimal.atoll (Item.text value ++
        (List.ofFn int64str).drop (Item.text value).length)) := by
  have short := Item.length_text value
  have accepted : decide (128 < (Item.text value).length) = false :=
    decide_eq_false (by omega)
  rw [Item.field, Field.encode, List.append_assoc] at held
  have copied : (stream.readCString 128).result = some (Item.text value) :=
    (copyField_held (fun fieldlen => 128 < fieldlen) (by omega) accepted held).1
  rw [readInt64, copied, Option.map_some, Bytes.overwrite, List.take_zero, List.nil_append,
    Nat.zero_add]

theorem readInt64After_eq (str : Fin (BINARY_PACKLEN_LEN_2 + CHECKSUM_LEN) → Byte)
    (beyond : Nat → Byte) {before : List Item} {readings : List Reading}
    (matching : List.Forall₂ Item.Fits before readings) (value : Option (BitVec 64))
    (after : List Item) (int64str : Fin 128 → Byte) :
    readInt64After (.reading (packedItems str (before ++ .int64 value :: after)) beyond)
        readings int64str =
      some (Decimal.atoll (Item.text value ++
        (List.ofFn int64str).drop (Item.text value).length)) := by
  rcases packed_eq str ((before ++ .int64 value :: after).map Item.field) with
    ⟨checksum, checksumLength, split⟩
  rw [← packedItems_eq, List.map_append, List.flatMap_append, List.map_cons,
    List.flatMap_cons, ← List.append_assoc] at split
  have front : (BigEndian.encode 4
      ((packedItems str (before ++ .int64 value :: after)).length % 2 ^ 32) ++
        checksum).length = 6 := by
    rw [List.length_append, BigEndian.length_encode, checksumLength]
    rfl
  have held := BinaryReadStream.holds_reading beyond split front
  have each : ∀ stream field kind rest, Field.Fits field kind →
      stream.Holds (field.encode ++ rest) →
      ∃ next, FieldKind.read stream kind = some (field, next) ∧ next.Holds rest := by
    intro stream field kind rest fitting remaining
    exact FieldKind.read_encoded fitting remaining
  have fields : List.Forall₂ Field.Fits (before.map Item.field) (readings.map Reading.kind) := by
    rw [List.forall₂_map_left_iff, List.forall₂_map_right_iff]
    exact matching.imp fun _ _ fits => fits.field
  rcases readSequence_encoded each fields held with ⟨reached, passed, remaining⟩
  rw [readInt64After, Reading.passAll_eq, passed]
  exact BinaryReadStream.readInt64_held remaining int64str

/-- A number is read back exactly when the old content of the array is harmless behind its
text, and a null field has no fixed value, whatever stands around the field. -/
theorem readInt64_packedItems (str : Fin (BINARY_PACKLEN_LEN_2 + CHECKSUM_LEN) → Byte)
    (beyond : Nat → Byte) (before after : List Item) (readings : List Reading)
    (matching : List.Forall₂ Item.Fits before readings) :
    (∀ (value : BitVec 64) (int64str : Fin 128 → Byte),
      readInt64After (.reading (packedItems str (before ++ .int64 (some value) :: after)) beyond)
          readings int64str = some (some value.toInt) ↔
        Decimal.Harmless value.toInt
          ((List.ofFn int64str).drop (Decimal.text value.toInt).length)) ∧
    ¬ ∃ fixed, ∀ int64str : Fin 128 → Byte,
      readInt64After (.reading (packedItems str (before ++ .int64 none :: after)) beyond)
        readings int64str = some fixed := by
  constructor
  · intro value int64str
    rw [readInt64After_eq str beyond matching, Option.some.injEq]
    exact Decimal.atoll_text_append_iff (BitVec.le_toInt value) BitVec.toInt_lt _
  · intro alike
    rcases alike with ⟨fixed, same⟩
    have zero := same fun index => if index.val = 0 then 48 else 0
    have one := same fun index => if index.val = 0 then 49 else 0
    rw [readInt64After_eq str beyond matching] at zero one
    rw [← zero] at one
    revert one
    decide +kernel

/-- Between a character and a string, with a field of 64 bits in front. -/
theorem readInt64_packedItems_between :
    (readInt64After (.reading (packedItems (fun _ => 0) [.plain (.char 7), .int64 (some 12),
        .int64 (some 5), .plain (.string (ascii "a"))]) fun _ => 0)
      [.plain .char, .int64 fun _ => 48] (fun _ => 0)) = some (some 5) := by
  have matching : List.Forall₂ Item.Fits [.plain (.char 7), .int64 (some 12)]
      [.plain .char, .int64 fun _ => 48] :=
    .cons (.plain (.char 7)) (.cons (.int64 _ _) .nil)
  have iff := (readInt64_packedItems (fun _ => 0) (fun _ => 0) _
    [.plain (.string (ascii "a"))] _ matching).1 5 (fun _ => 0)
  exact iff.mpr ⟨⟨0, by decide, by decide⟩, .inl (by decide)⟩

/-- A 7 that the array still holds is read as another digit of 5, and a null field is read
as whatever number the array holds. -/
theorem stale_digits_read :
    readInt64After (.reading (packedItems (fun _ => 0) [.int64 (some 5)]) fun _ => 0) []
      (fun index => if index.val = 1 then 55 else 0) = some (some 57) ∧
    readInt64After (.reading (packedItems (fun _ => 0) [.int64 none]) fun _ => 0) []
      (fun index => if index.val = 0 then 49 else 0) = some (some 1) ∧
    readInt64After (.reading (packedItems (fun _ => 0) [.int64 none]) fun _ => 0) []
      (fun _ => 0) = some (some 0) := by
  have number := readInt64After_eq (fun _ => 0) (fun _ => 0) .nil (some 5) []
  have null := readInt64After_eq (fun _ => 0) (fun _ => 0) .nil none []
  rw [List.nil_append] at number null
  rw [number, null, null]
  decide +kernel

end MyBookSources.Net
