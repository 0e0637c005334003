import Mathlib.Data.List.Basic
import Mathlib.Data.List.TakeWhile
import Mathlib.Tactic.Ring

/-! # Bytes and fixed-width integers

Byte strings, the conversions between the integer widths of the C++ sources,
and big-endian encodings of a fixed number of bytes.
-/

namespace MyBookSources

abbrev Byte := UInt8

abbrev Bytes := List Byte

theorem forall_byte {holds : Byte → Prop} (all : ∀ value : Fin 256, holds (UInt8.ofNat value))
    (c : Byte) : holds c := by
  have given := all ⟨c.toNat, c.toNat_lt⟩
  rwa [UInt8.ofNat_toNat] at given

/-- The bytes of an ASCII literal of the sources. -/
def ascii (text : String) : Bytes :=
  text.toList.map fun char => UInt8.ofNat char.toNat

/-- Evaluates a literal from its characters, without the bytes of its string. -/
theorem ascii_ofList (chars : List Char) :
    ascii (String.ofList chars) = chars.map fun char => UInt8.ofNat char.toNat := by
  rw [ascii, String.toList_ofList]

/-- A string as a function sees it that takes a `const char*`. -/
def cString (text : Bytes) : Bytes := text.takeWhile (· ≠ 0)

/-- Conversion of a `size_t` to `int32_t`: the low 32 bits, read as two's
complement. -/
def int32 (value : Nat) : Int :=
  if value % 2 ^ 32 < 2 ^ 31 then (value % 2 ^ 32 : Nat)
  else (value % 2 ^ 32 : Nat) - 2 ^ 32

/-- Conversion of an unsigned 64-bit value to `int64_t`. -/
def int64 (value : Nat) : Int :=
  if value % 2 ^ 64 < 2 ^ 63 then (value % 2 ^ 64 : Nat)
  else (value % 2 ^ 64 : Nat) - 2 ^ 64

/-- The two's complement value of the low `width` bits: conversions to a narrower signed
type, and signed sums where they leave their type. -/
def signed (width : Nat) (value : Int) : Int := value.bmod (2 ^ width)

/-- A sum of two `size_t` values wraps at `2 ^ 64`. -/
def sizeAdd (left right : Nat) : Nat := (left + right) % 2 ^ 64

/-- A difference of two `size_t` values wraps at `2 ^ 64`. -/
def sizeSub (left right : Nat) : Nat := (left + (2 ^ 64 - right % 2 ^ 64)) % 2 ^ 64

theorem decide_ne_of_not_mem {absent : Byte} {text : Bytes} (clean : absent ∉ text) :
    ∀ byte ∈ text, decide (byte ≠ absent) = true := by
  rintro byte member
  rw [decide_eq_true_eq]
  rintro rfl
  exact clean member

theorem cString_eq_iff (text : Bytes) : cString text = text ↔ 0 ∉ text := by
  rw [cString, List.takeWhile_eq_self_iff]
  constructor
  · intro all zero
    exact absurd (all 0 zero) (by decide)
  · exact decide_ne_of_not_mem

theorem int32_of_lt {value : Nat} (small : value < 2 ^ 31) : int32 value = value := by
  unfold int32
  split <;> omega

theorem int32_le (value : Nat) : int32 value ≤ value := by
  unfold int32
  split <;> omega

theorem int32_nonpos {value : Nat} (large : 2 ^ 31 ≤ value) (low : value < 2 ^ 32) :
    int32 value ≤ 0 := by
  unfold int32
  split <;> omega

theorem signed_of_range {value : Int} (low : -2 ^ 31 ≤ value) (high : value < 2 ^ 31) :
    signed 32 value = value := by
  rw [signed, Int.bmod_eq_of_le_mul_two] <;> omega

theorem signed_of_lt {value : Int} (low : 0 ≤ value) (high : value < 2 ^ 31) :
    signed 32 value = value :=
  signed_of_range (by omega) high

theorem int64_of_lt {value : Nat} (small : value < 2 ^ 63) : int64 value = value := by
  unfold int64
  split <;> omega

theorem sizeAdd_of_lt {left right : Nat} (small : left + right < 2 ^ 64) :
    sizeAdd left right = left + right :=
  Nat.mod_eq_of_lt small

theorem sizeSub_of_le {left right : Nat} (ordered : right ≤ left)
    (small : left < 2 ^ 64) : sizeSub left right = left - right := by
  unfold sizeSub
  have low : right % 2 ^ 64 = right := Nat.mod_eq_of_lt (by omega)
  rw [low]
  omega

/-! ## Memory blocks -/

namespace Bytes

/-- `std::copy` of `data` onto the memory that starts at `position`. -/
def overwrite (memory : Bytes) (position : Nat) (data : Bytes) : Bytes :=
  memory.take position ++ data ++ memory.drop (position + data.length)

/-- `std::vector<char>::resize`: new elements are zero. -/
def resize (memory : Bytes) (size : Nat) : Bytes :=
  (memory ++ List.replicate (size - memory.length) 0).take size

@[simp] theorem length_resize (memory : Bytes) (size : Nat) :
    (memory.resize size).length = size := by
  simp only [resize, List.length_take, List.length_append, List.length_replicate]
  omega

theorem take_resize {memory : Bytes} {count size : Nat}
    (inMemory : count ≤ memory.length) (kept : count ≤ size) :
    (memory.resize size).take count = memory.take count := by
  rw [resize, List.take_take, Nat.min_eq_left kept,
    List.take_append_of_le_length inMemory]

theorem length_overwrite {memory : Bytes} {position : Nat} {data : Bytes}
    (fits : position + data.length ≤ memory.length) :
    (memory.overwrite position data).length = memory.length := by
  simp only [overwrite, List.length_append, List.length_take, List.length_drop]
  omega

theorem take_overwrite {memory : Bytes} {position : Nat} {data : Bytes}
    (fits : position ≤ memory.length) :
    (memory.overwrite position data).take (position + data.length) =
      memory.take position ++ data := by
  have front : (memory.take position ++ data).length = position + data.length := by
    simp [Nat.min_eq_left fits]
  rw [overwrite, ← front, List.take_left']
  rfl

/-- The bytes from `first` up to `last`. -/
def slice (memory : Bytes) (first last : Nat) : Bytes :=
  (memory.take last).drop first

theorem length_slice {memory : Bytes} {first last : Nat} (inMemory : last ≤ memory.length) :
    (memory.slice first last).length = last - first := by
  simp [slice, Nat.min_eq_left inMemory]

theorem slice_eq_of_take_eq {left right : Bytes} {last : Nat}
    (equal : left.take last = right.take last) (first : Nat) :
    left.slice first last = right.slice first last := by
  simp only [slice, equal]

theorem slice_append {memory : Bytes} {first middle last : Nat}
    (firstMiddle : first ≤ middle) (middleLast : middle ≤ last)
    (inMemory : last ≤ memory.length) :
    memory.slice first middle ++ memory.slice middle last = memory.slice first last := by
  have split : memory.take last = memory.take middle ++ memory.slice middle last := by
    rw [slice, ← List.take_append_drop middle (memory.take last), List.take_take,
      Nat.min_eq_left middleLast]
    simp [Nat.min_eq_left (Nat.le_trans middleLast inMemory)]
  rw [slice, slice.eq_def memory first last, split]
  exact (List.drop_append_of_le_length
    (by simp; omega)).symm

theorem slice_overwrite_front {memory : Bytes} {position last : Nat} {data : Bytes}
    (inMemory : position + data.length ≤ memory.length)
    (before : position + data.length ≤ last) :
    (memory.overwrite position data).slice position last =
      data ++ memory.slice (position + data.length) last := by
  have front : (memory.take position ++ data).length = position + data.length := by
    simp only [List.length_append, List.length_take]
    omega
  have positionBound : (memory.take position).length = position := by
    simp only [List.length_take]
    omega
  have cut : (memory.overwrite position data).take last =
      memory.take position ++ data ++ memory.slice (position + data.length) last := by
    rw [overwrite, List.take_append, front, List.take_of_length_le (by omega), slice,
      List.drop_take]
  rw [slice, cut, List.append_assoc, List.drop_left' positionBound]

end Bytes

/-! ## Big-endian encodings -/

namespace BigEndian

/-- The `width` low bytes of a number, most significant byte first. -/
def encode : (width : Nat) → Nat → Bytes
  | 0, _ => []
  | width + 1, value => UInt8.ofNat (value / 256 ^ width) :: encode width value

def decode (bytes : Bytes) : Nat :=
  bytes.foldl (fun value byte => value * 256 + byte.toNat) 0

/-- Two bytes are read the way `ntohs` reads a port. -/
example : decode [0x01, 0x02] = 258 := by decide

@[simp] theorem length_encode (width value : Nat) :
    (encode width value).length = width := by
  induction width with
  | zero => rfl
  | succ width induction => simp [encode, induction]

theorem foldl_eq_add (bytes : Bytes) (high : Nat) :
    bytes.foldl (fun value byte => value * 256 + byte.toNat) high =
      high * 256 ^ bytes.length + decode bytes := by
  induction bytes generalizing high with
  | nil => simp [decode]
  | cons byte rest induction =>
      simp only [List.foldl_cons, decode, List.length_cons]
      rw [induction, induction (0 * 256 + byte.toNat)]
      ring

theorem decode_cons (byte : Byte) (rest : Bytes) :
    decode (byte :: rest) = byte.toNat * 256 ^ rest.length + decode rest := by
  simp only [decode, List.foldl_cons]
  rw [foldl_eq_add]
  simp [decode]

theorem decode_encode_mod (width value : Nat) :
    decode (encode width value) = value % 256 ^ width := by
  induction width with
  | zero => simp [encode, decode, Nat.mod_one]
  | succ width induction =>
      rw [encode, decode_cons, induction, length_encode]
      have byte : (UInt8.ofNat (value / 256 ^ width)).toNat =
          value / 256 ^ width % 256 := by simp
      rw [byte, Nat.pow_succ, Nat.mod_mul]
      ring

theorem decode_encode {width value : Nat} (small : value < 256 ^ width) :
    decode (encode width value) = value := by
  rw [decode_encode_mod, Nat.mod_eq_of_lt small]

theorem decode_lt (bytes : Bytes) : decode bytes < 256 ^ bytes.length := by
  induction bytes with
  | nil => simp [decode]
  | cons byte rest induction =>
      rw [decode_cons, List.length_cons, Nat.pow_succ]
      have small : byte.toNat < 256 := byte.toNat_lt
      calc
        byte.toNat * 256 ^ rest.length + decode rest
            < byte.toNat * 256 ^ rest.length + 256 ^ rest.length := by omega
        _ = (byte.toNat + 1) * 256 ^ rest.length := by ring
        _ ≤ 256 * 256 ^ rest.length := Nat.mul_le_mul_right _ small
        _ = 256 ^ rest.length * 256 := by ring

theorem encode_add_mul (width value high : Nat) :
    encode width (value + high * 256 ^ width) = encode width value := by
  induction width generalizing high with
  | zero => rfl
  | succ width induction =>
      have shifted : high * 256 ^ (width + 1) = high * 256 * 256 ^ width := by
        ring
      have byte : UInt8.ofNat ((value + high * 256 * 256 ^ width) / 256 ^ width) =
          UInt8.ofNat (value / 256 ^ width) := by
        rw [← UInt8.toNat_inj, UInt8.toNat_ofNat', UInt8.toNat_ofNat',
          Nat.add_mul_div_right _ _ (Nat.pow_pos (by decide))]
        omega
      rw [encode, encode, shifted, byte, induction]

theorem encode_decode (bytes : Bytes) : encode bytes.length (decode bytes) = bytes := by
  induction bytes with
  | nil => rfl
  | cons byte rest induction =>
      have small := decode_lt rest
      have first : (byte.toNat * 256 ^ rest.length + decode rest) / 256 ^ rest.length =
          byte.toNat := by
        rw [Nat.add_comm, Nat.add_mul_div_right _ _ (Nat.pow_pos (by decide)),
          Nat.div_eq_of_lt small, Nat.zero_add]
      rw [List.length_cons, encode, decode_cons, first, UInt8.ofNat_toNat, Nat.add_comm,
        encode_add_mul, induction]

end BigEndian

end MyBookSources
