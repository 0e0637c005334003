import Mathlib.Data.List.GetD
import MyBookSources.Foundation.Bytes

/-! # SHA-1

A message is padded to blocks of sixteen words. A block is expanded to eighty words, each of
which a round takes into the five registers.
-/

namespace MyBookSources.Sha1

def word (words : List UInt32) (index : Nat) : UInt32 := words.getD index 0

def rotateLeft (value bits : UInt32) : UInt32 := value <<< bits ||| value >>> (32 - bits)

theorem word_append_left {words others : List UInt32} {index : Nat}
    (inside : index < words.length) : word (words ++ others) index = word words index :=
  List.getD_append words others 0 index inside

theorem word_append_length (words : List UInt32) (value : UInt32) :
    word (words ++ [value]) words.length = value := by
  simp [word]

theorem word_set {words : List UInt32} {target : Nat} (inside : target < words.length)
    (value : UInt32) (index : Nat) :
    word (words.set target value) index = if target = index then value else word words index := by
  by_cases same : target = index
  · simp [word, ← same, inside]
  · simp [word, same]

/-! ## The schedule of a block -/

def nextWord (words : List UInt32) : UInt32 :=
  rotateLeft (word words (words.length - 3) ^^^ word words (words.length - 8) ^^^
    word words (words.length - 14) ^^^ word words (words.length - 16)) 1

def extend (block : List UInt32) : Nat → List UInt32
  | 0 => block
  | count + 1 => extend block count ++ [nextWord (extend block count)]

def schedule (block : List UInt32) : List UInt32 := extend block 64

theorem length_extend (block : List UInt32) (count : Nat) :
    (extend block count).length = block.length + count := by
  induction count with
  | zero => rfl
  | succ count induction =>
      rw [extend, List.length_append, induction, List.length_singleton, Nat.add_assoc]

theorem word_extend (block : List UInt32) {count total index : Nat} (more : count ≤ total)
    (inside : index < block.length + count) :
    word (extend block total) index = word (extend block count) index := by
  induction total, more using Nat.le_induction with
  | base => rfl
  | succ total more induction =>
      rw [extend, word_append_left (by rw [length_extend]; omega), induction]

theorem word_schedule_of_lt {block : List UInt32} {index : Nat} (inside : index < block.length) :
    word (schedule block) index = word block index :=
  word_extend block (Nat.zero_le 64) inside

theorem word_schedule {block : List UInt32} (size : block.length = 16) {index : Nat}
    (later : 16 ≤ index) (inside : index < 80) :
    word (schedule block) index =
      rotateLeft (word (schedule block) (index - 3) ^^^ word (schedule block) (index - 8) ^^^
        word (schedule block) (index - 14) ^^^ word (schedule block) (index - 16)) 1 := by
  rcases Nat.exists_eq_add_of_le later with ⟨count, rfl⟩
  have length : (extend block count).length = 16 + count := by rw [length_extend, size]
  have before {position : Nat} (lower : position < 16 + count) :
      word (schedule block) position = word (extend block count) position :=
    word_extend block (by omega) (by omega)
  have last : word (schedule block) (16 + count) =
      word (extend block (count + 1)) (16 + count) :=
    word_extend block (by omega) (by omega)
  have new : word (extend block (count + 1)) (16 + count) = nextWord (extend block count) := by
    rw [extend, ← length, word_append_length]
  rw [last, new, nextWord, length, before (by omega), before (by omega), before (by omega),
    before (by omega)]

/-! ## The compression -/

structure Registers where
  a : UInt32
  b : UInt32
  c : UInt32
  d : UInt32
  e : UInt32
deriving DecidableEq

def Registers.add (left right : Registers) : Registers :=
  { a := left.a + right.a, b := left.b + right.b, c := left.c + right.c,
    d := left.d + right.d, e := left.e + right.e }

def choose (x y z : UInt32) : UInt32 := (x &&& y) ^^^ (~~~x &&& z)

def parity (x y z : UInt32) : UInt32 := x ^^^ y ^^^ z

def majority (x y z : UInt32) : UInt32 :=
  (x &&& y) ^^^ (x &&& z) ^^^ (y &&& z)

def mix (t : Nat) (x y z : UInt32) : UInt32 :=
  if t < 20 then choose x y z else if t < 40 then parity x y z
  else if t < 60 then majority x y z else parity x y z

def roundConstant (t : Nat) : UInt32 :=
  if t < 20 then 0x5a827999 else if t < 40 then 0x6ed9eba1
  else if t < 60 then 0x8f1bbcdc else 0xca62c1d6

def round (t : Nat) (scheduled : UInt32) (registers : Registers) : Registers :=
  { a := rotateLeft registers.a 5 + mix t registers.b registers.c registers.d + registers.e +
      roundConstant t + scheduled
    b := registers.a
    c := rotateLeft registers.b 30
    d := registers.c
    e := registers.d }

def rounds (words : List UInt32) (registers : Registers) : Nat → Registers
  | 0 => registers
  | count + 1 => round count (word words count) (rounds words registers count)

def compress (registers : Registers) (block : List UInt32) : Registers :=
  registers.add (rounds (schedule block) registers 80)

/-! ## Messages -/

def padding (length : Nat) : Bytes :=
  128 :: List.replicate ((119 - length % 64) % 64) 0 ++ BigEndian.encode 8 (8 * length)

def pad (message : Bytes) : Bytes := message ++ padding message.length

def blockWords (block : Bytes) : List UInt32 :=
  (List.range 16).map fun i => UInt32.ofNat (BigEndian.decode ((block.drop (4 * i)).take 4))

def blocks (padded : Bytes) : Nat → List (List UInt32)
  | 0 => []
  | count + 1 => blockWords padded :: blocks (padded.drop 64) count

def initial : Registers :=
  { a := 0x67452301, b := 0xefcdab89, c := 0x98badcfe, d := 0x10325476, e := 0xc3d2e1f0 }

def hash (message : Bytes) : Registers :=
  (blocks (pad message) ((pad message).length / 64)).foldl compress initial

def Registers.words (registers : Registers) : List UInt32 :=
  [registers.a, registers.b, registers.c, registers.d, registers.e]

def digest (message : Bytes) : Bytes :=
  (hash message).words.flatMap fun value => BigEndian.encode 4 value.toNat

end MyBookSources.Sha1
