import MyBookSources.Foundation.Bytes

/-! # Protocol streams

`net::BinaryWriteStream` and `net::BinaryReadStream`: fields behind a header of
four length bytes and two checksum bytes. A reader is handed a pointer and a
length; positions are counted from that pointer, and the memory behind the
buffer has bytes as well, so that reading them can be seen.
-/

namespace MyBookSources.Net

def BINARY_PACKLEN_LEN_2 : Nat := 4
def CHECKSUM_LEN : Nat := 2

/-! ## Length prefixes -/

/-- One turn of the loop in `compress_`, for the group `a`. -/
def compressGroup (i : UInt32) (buf : Bytes) (a : Nat) : Bytes :=
  let c := (i >>> UInt32.ofNat (a * 7) &&& 0x7f).toUInt8
  if c = 0 ∧ buf.length = 0 then buf
  else buf ++ [if a = 0 then c &&& 0x7f else c ||| 0x80]

/-- `compress_`: the bytes put into `buf`. -/
def compress (i : UInt32) : Bytes :=
  let buf := [4, 3, 2, 1, 0].foldl (compressGroup i) []
  if buf.length = 0 then [0] else buf

/-- `uncompress_`: the value left in `i`. -/
def uncompress (buf : Bytes) : UInt32 :=
  buf.foldl (fun i c => i <<< 7 ||| (c &&& 0x7f).toUInt32) 0

/-! ## Writing -/

/-- A field that is written and read back. Integers are bit patterns. -/
inductive Field
  | char (c : Byte)
  | short (i : BitVec 16)
  | int32 (i : BitVec 32)
  | string (str : Bytes)
  deriving DecidableEq

structure BinaryWriteStream where
  data : Bytes

namespace BinaryWriteStream

/-- The header is appended from an array that was never set. -/
def create (str : Fin (BINARY_PACKLEN_LEN_2 + CHECKSUM_LEN) → Byte) : BinaryWriteStream where
  data := List.ofFn str

variable (stream : BinaryWriteStream)

def append (bytes : Bytes) : BinaryWriteStream := ⟨stream.data ++ bytes⟩

/-- The length goes through the `unsigned int` parameter of `compress_`. -/
def writeCString (str : Bytes) : BinaryWriteStream :=
  (stream.append (compress (UInt32.ofNat str.length))).append str

def writeString (str : Bytes) : BinaryWriteStream := stream.writeCString str

/-- A null integer is the number 999999999 in the byte order of the host, which
is little-endian. -/
def writeInt32 (i : BitVec 32) (isNULL : Bool) : BinaryWriteStream :=
  stream.append (if isNULL then (BigEndian.encode 4 999999999).reverse
    else BigEndian.encode 4 i.toNat)

def writeShort (i : BitVec 16) (isNULL : Bool) : BinaryWriteStream :=
  stream.append (if isNULL then [0, 0] else BigEndian.encode 2 i.toNat)

def writeChar (c : Byte) (isNULL : Bool) : BinaryWriteStream :=
  stream.append [if isNULL then 0 else c]

/-- `htonl` takes the low 32 bits of the length. -/
def flush : BinaryWriteStream where
  data := stream.data.overwrite 0 (BigEndian.encode 4 (stream.data.length % 2 ^ 32))

def writeField : Field → BinaryWriteStream
  | .char c => stream.writeChar c false
  | .short i => stream.writeShort i false
  | .int32 i => stream.writeInt32 i false
  | .string str => stream.writeString str

def writeFields (fields : List Field) : BinaryWriteStream :=
  fields.foldl writeField stream

end BinaryWriteStream

/-! ## Reading -/

/-- `count` bytes of the memory from `start` on. -/
def bytesAt (memory : Nat → Byte) (start count : Nat) : Bytes :=
  (List.range count).map fun index => memory (start + index)

/-- `memory` is the memory from `ptr` on, and `cur` counts from there. -/
structure BinaryReadStream where
  memory : Nat → Byte
  len : Nat
  cur : Nat

/-- What a call did. `result` is none where it returned false, `outlen` is the
value it gave to the parameter of that name, and `touched` are the positions of
the bytes it read. -/
structure ReadOutcome (α : Type) where
  result : Option α
  outlen : Option Nat
  stream : BinaryReadStream
  touched : List Nat

def ReadOutcome.map (change : α → β) (outcome : ReadOutcome α) : ReadOutcome β :=
  ⟨outcome.result.map change, outcome.outlen, outcome.stream, outcome.touched⟩

namespace BinaryReadStream

def create (memory : Nat → Byte) (len : Nat) : BinaryReadStream where
  memory := memory
  len := len
  cur := BINARY_PACKLEN_LEN_2 + CHECKSUM_LEN

variable (stream : BinaryReadStream)

def advance (count : Nat) : BinaryReadStream := { stream with cur := stream.cur + count }

/-- The loop that copies a length prefix into `buf`, up to the first byte whose
top bit is clear. -/
def scanPrefix (memory : Nat → Byte) (temp : Nat) : (room : Nat) → Bytes
  | 0 => []
  | room + 1 =>
      if memory temp &&& 0x80 = 0 then [memory temp]
      else memory temp :: scanPrefix memory (temp + 1) room

/-- The result is `headlen` and `outlen`. -/
def readLengthWithoutOffset : ReadOutcome (Nat × Nat) :=
  let buf := scanPrefix stream.memory stream.cur 5
  let headlen := buf.length
  let touched := List.range' stream.cur headlen
  if stream.len < stream.cur + headlen then ⟨none, none, stream, touched⟩
  else
    let value := (uncompress buf).toNat
    ⟨some (headlen, value), some value, stream, touched⟩

def readLength : ReadOutcome Nat :=
  let prefixed := stream.readLengthWithoutOffset
  match prefixed.result with
  | none => ⟨none, none, stream, prefixed.touched⟩
  | some (headlen, outlen) =>
      ⟨some outlen, some outlen, stream.advance headlen, prefixed.touched⟩

/-- The common body of `ReadCString`, `ReadString` and `ReadCCString`: `refuses` is
the test of the field length against the room of the caller, and the result is
where the field starts and how long it is. -/
def locateField (refuses : Nat → Bool) : ReadOutcome (Nat × Nat) :=
  let prefixed := stream.readLengthWithoutOffset
  match prefixed.result with
  | none => ⟨none, none, stream, prefixed.touched⟩
  | some (headlen, fieldlen) =>
      if refuses fieldlen then ⟨none, none, stream, prefixed.touched⟩
      else
        let located := stream.advance headlen
        if located.len < located.cur + fieldlen then
          ⟨none, some 0, located, prefixed.touched⟩
        else
          ⟨some (located.cur, fieldlen), some fieldlen, located.advance fieldlen,
            prefixed.touched⟩

def copyField (located : ReadOutcome (Nat × Nat)) : ReadOutcome Bytes :=
  match located.result with
  | none => ⟨none, located.outlen, located.stream, located.touched⟩
  | some (start, fieldlen) =>
      ⟨some (bytesAt located.stream.memory start fieldlen), located.outlen, located.stream,
        located.touched ++ List.range' start fieldlen⟩

def readCString (strlen : Nat) : ReadOutcome Bytes :=
  copyField (stream.locateField fun fieldlen => strlen < fieldlen)

def readString (maxlen : Nat) : ReadOutcome Bytes :=
  copyField (stream.locateField fun fieldlen => maxlen ≠ 0 && maxlen < fieldlen)

/-- `ReadCCString` only points into the buffer. -/
def readCCString (maxlen : Nat) : ReadOutcome (Nat × Nat) :=
  stream.locateField fun fieldlen => maxlen ≠ 0 && maxlen < fieldlen

/-- The common body of `ReadInt32`, `ReadShort` and `ReadChar`. -/
def readValue (VALUE_SIZE : Nat) : ReadOutcome Bytes :=
  if stream.len < stream.cur + VALUE_SIZE then ⟨none, none, stream, []⟩
  else
    ⟨some (bytesAt stream.memory stream.cur VALUE_SIZE), none, stream.advance VALUE_SIZE,
      List.range' stream.cur VALUE_SIZE⟩

def readInt32 : ReadOutcome (BitVec 32) :=
  (stream.readValue 4).map fun bytes => BitVec.ofNat 32 (BigEndian.decode bytes)

def readShort : ReadOutcome (BitVec 16) :=
  (stream.readValue 2).map fun bytes => BitVec.ofNat 16 (BigEndian.decode bytes)

def readChar : ReadOutcome Byte :=
  (stream.readValue 1).map fun bytes => UInt8.ofNat (BigEndian.decode bytes)

/-- None where the assertion fails. -/
def isEnd : Option Bool :=
  if stream.cur ≤ stream.len then some (stream.cur == stream.len) else none

end BinaryReadStream

/-! ## Arithmetic of the length prefix -/

theorem toNat_group (i : UInt32) {a : Nat} (small : a < 5) :
    (i >>> UInt32.ofNat (a * 7) &&& 0x7f).toUInt8.toNat = i.toNat / 128 ^ a % 128 := by
  have shift : (UInt32.ofNat (a * 7)).toNat % 32 = a * 7 := by
    rw [UInt32.toNat_ofNat']
    omega
  have mask : (0x7f : UInt32).toNat = 2 ^ 7 - 1 := rfl
  have power : 2 ^ (a * 7) = 128 ^ a := by
    rw [Nat.mul_comm, Nat.pow_mul]
  rw [UInt32.toNat_toUInt8, UInt32.toNat_and, UInt32.toNat_shiftRight, shift, mask,
    Nat.and_two_pow_sub_one_eq_mod, Nat.shiftRight_eq_div_pow, power]
  exact Nat.mod_eq_of_lt (by omega)

theorem toNat_and_low (c : Byte) : (c &&& 0x7f).toNat = c.toNat % 128 := by
  have mask : (0x7f : Byte).toNat = 2 ^ 7 - 1 := rfl
  rw [UInt8.toNat_and, mask, Nat.and_two_pow_sub_one_eq_mod]

theorem toNat_or_high {c : Byte} (low : c.toNat < 128) :
    (c ||| 0x80).toNat = c.toNat + 128 := by
  have bit : (0x80 : Byte).toNat = 2 ^ 7 * 1 := rfl
  rw [UInt8.toNat_or, bit, Nat.or_comm, ← Nat.two_pow_add_eq_or_of_lt low]
  omega

theorem and_high_eq_zero_iff (c : Byte) : c &&& 0x80 = 0 ↔ c.toNat < 128 := by
  have every : ∀ value : Fin 256, (value.val &&& 128 = 0 ↔ value.val < 128) := by
    decide +kernel
  rw [← UInt8.toNat_inj, UInt8.toNat_and]
  exact every ⟨c.toNat, c.toNat_lt⟩

theorem toNat_shift_or {i : UInt32} {c : Byte} :
    (i <<< 7 ||| (c &&& 0x7f).toUInt32).toNat = (i.toNat * 128 + c.toNat % 128) % 2 ^ 32 := by
  have shift : (7 : UInt32).toNat % 32 = 7 := rfl
  have low : c.toNat % 128 < 2 ^ 7 := Nat.mod_lt _ (by decide)
  have aligned : i.toNat * 2 ^ 7 % 2 ^ 32 = 2 ^ 7 * (i.toNat % 2 ^ 25) := by
    omega
  rw [UInt32.toNat_or, UInt32.toNat_shiftLeft, shift, UInt8.toNat_toUInt32, toNat_and_low,
    Nat.shiftLeft_eq, aligned, ← Nat.two_pow_add_eq_or_of_lt low]
  omega

end MyBookSources.Net
