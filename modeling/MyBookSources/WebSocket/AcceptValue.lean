import MyBookSources.Foundation.Base64
import MyBookSources.Foundation.Sha1
import MyBookSources.WebSocket.WebSocketHandshake

/-! # What `generate` computes

The rounds of `sha1` do not move the registers: their positions in the array `a` turn by one
with each round. The block `b` holds the last sixteen words of the schedule, each at its number
modulo 16. So the result is SHA-1, and `generate` gives the value that answers a key.
-/

namespace MyBookSources.WebSocketHandshake

open Sha1 (Registers)

theorem rol_eq (value bits : UInt32) : rol value bits = Sha1.rotateLeft value bits := rfl

theorem word_eq (words : Words) (index : Nat) : word words index = Sha1.word words index := rfl

/-! ## The registers in the array -/

/-- Before round `t`, the register `a` is at `t + 4`, and the others are below it. -/
structure Turned (t : Nat) (a : Words) (registers : Registers) : Prop where
  size : a.length = 5
  first : word a ((t + 4) % 5) = registers.a
  second : word a ((t + 3) % 5) = registers.b
  third : word a ((t + 2) % 5) = registers.c
  fourth : word a ((t + 1) % 5) = registers.d
  fifth : word a (t % 5) = registers.e

theorem turned_zero (registers : Registers) : Turned 0 registers.words.reverse registers :=
  { size := rfl, first := rfl, second := rfl, third := rfl, fourth := rfl, fifth := rfl }

theorem Turned.sum {t : Nat} {a : Words} {registers : Registers} (turned : Turned t a registers)
    (round : t % 5 = 0) (hash : Registers) :
    (List.range 5).map (fun i => word hash.words i + word a (4 - i)) =
      (hash.add registers).words := by
  have first := turned.first
  have second := turned.second
  have third := turned.third
  have fourth := turned.fourth
  have fifth := turned.fifth
  rw [show (t + 4) % 5 = 4 by omega] at first
  rw [show (t + 3) % 5 = 3 by omega] at second
  rw [show (t + 2) % 5 = 2 by omega] at third
  rw [show (t + 1) % 5 = 1 by omega] at fourth
  rw [round] at fifth
  simp [List.range_succ, Registers.words, Registers.add, first, second, third, fourth, fifth]
  exact ⟨rfl, rfl, rfl, rfl, rfl⟩

theorem Turned.update {t : Nat} {a : Words} {registers : Registers}
    (turned : Turned t a registers) (mixed : UInt32) :
    Turned (t + 1) (update a (t % 5) ((t + 3) % 5) mixed)
      { a := registers.e + mixed, b := registers.a, c := Sha1.rotateLeft registers.b 30,
        d := registers.c, e := registers.d } := by
  have target : t % 5 < a.length := by rw [turned.size]; omega
  have rotated (value : UInt32) : (t + 3) % 5 < (a.set (t % 5) value).length := by
    rw [List.length_set, turned.size]
    omega
  have value (index : Nat) : word (WebSocketHandshake.update a (t % 5) ((t + 3) % 5) mixed) index =
      if (t + 3) % 5 = index then
        rol (if t % 5 = (t + 3) % 5 then registers.e + mixed else word a ((t + 3) % 5)) 30
      else if t % 5 = index then registers.e + mixed else word a index := by
    rw [WebSocketHandshake.update, word_eq, Sha1.word_set (rotated _), word_eq,
      Sha1.word_set target, Sha1.word_set target, turned.fifth]
    rfl
  have others : t % 5 ≠ (t + 3) % 5 := by omega
  constructor
  · rw [WebSocketHandshake.update, List.length_set, List.length_set, turned.size]
  · rw [value, if_neg (by omega), if_pos (by omega)]
  · rw [value, if_neg (by omega), if_neg (by omega), show (t + 1 + 3) % 5 = (t + 4) % 5 by rfl,
      turned.first]
  · rw [value, if_pos (by omega), if_neg others, turned.second, rol_eq]
  · rw [value, if_neg (by omega), if_neg (by omega), show (t + 1 + 1) % 5 = (t + 2) % 5 by rfl,
      turned.third]
  · rw [value, if_neg (by omega), if_neg (by omega), turned.fourth]

/-! ## The schedule in the block -/

/-- Before round `t`, the block has the sixteen words of the schedule behind which the round
puts its own. -/
structure Circular (block : Words) (t : Nat) (b : Words) : Prop where
  size : b.length = 16
  recent : ∀ index, index < max t 16 → max t 16 ≤ index + 16 →
    word b (index % 16) = Sha1.word (Sha1.schedule block) index

theorem circular_zero {block : Words} (size : block.length = 16) : Circular block 0 block := by
  refine { size := size, recent := fun index inside recent => ?_ }
  rw [Sha1.word_schedule_of_lt (by omega), word_eq, Nat.mod_eq_of_lt (by omega)]

theorem Circular.keep {block b : Words} {t : Nat} (circular : Circular block t b)
    (early : t < 16) : Circular block (t + 1) b := by
  refine { size := circular.size, recent := fun index inside recent => ?_ }
  exact circular.recent index (by omega) (by omega)

theorem Circular.blk {block b : Words} {t : Nat} (circular : Circular block t b)
    (size : block.length = 16) (later : 16 ≤ t) (inside : t < 80) :
    blk b (t % 16) = Sha1.word (Sha1.schedule block) t := by
  have at13 : word b ((t % 16 + 13) % 16) = Sha1.word (Sha1.schedule block) (t - 3) := by
    rw [← circular.recent (t - 3) (by omega) (by omega)]
    congr 1
    omega
  have at8 : word b ((t % 16 + 8) % 16) = Sha1.word (Sha1.schedule block) (t - 8) := by
    rw [← circular.recent (t - 8) (by omega) (by omega)]
    congr 1
    omega
  have at2 : word b ((t % 16 + 2) % 16) = Sha1.word (Sha1.schedule block) (t - 14) := by
    rw [← circular.recent (t - 14) (by omega) (by omega)]
    congr 1
    omega
  have at0 : word b (t % 16) = Sha1.word (Sha1.schedule block) (t - 16) := by
    rw [← circular.recent (t - 16) (by omega) (by omega)]
    congr 1
    omega
  rw [WebSocketHandshake.blk, at13, at8, at2, at0, Sha1.word_schedule size later inside, rol_eq]

theorem Circular.set {block b : Words} {t : Nat} (circular : Circular block t b)
    (later : 16 ≤ t) :
    Circular block (t + 1) (b.set (t % 16) (Sha1.word (Sha1.schedule block) t)) := by
  have target : t % 16 < b.length := by rw [circular.size]; omega
  refine { size := by rw [List.length_set, circular.size], recent := fun index inside recent => ?_ }
  rw [word_eq, Sha1.word_set target]
  by_cases new : index = t
  · rw [if_pos (by rw [new]), new]
  · rw [if_neg (by omega)]
    exact circular.recent index (by omega) (by omega)

/-! ## The rounds -/

section

variable {block : Words} {registers : Registers}

/-- The arrays before round `t` of the compression of a block. -/
structure Before (block : Words) (registers : Registers) (t : Nat) (ab : Words × Words) :
    Prop where
  turned : Turned t ab.1 (Sha1.rounds (Sha1.schedule block) registers t)
  circular : Circular block t ab.2

/-- What a round adds to the register `e`, read from the array. -/
def added (block a : Words) (t : Nat) : UInt32 :=
  Sha1.mix t (word a ((t + 3) % 5)) (word a ((t + 2) % 5)) (word a ((t + 1) % 5)) +
    Sha1.word (Sha1.schedule block) t + Sha1.roundConstant t + rol (word a ((t + 4) % 5)) 5

theorem sum_order (mixed scheduled constant rotated e : UInt32) :
    e + (mixed + scheduled + constant + rotated) = rotated + mixed + e + constant + scheduled := by
  ac_rfl

theorem Before.round {t : Nat} {a b : Words} (before : Before block registers t (a, b))
    {c : Words} (circular : Circular block (t + 1) c) :
    Before block registers (t + 1)
      (update a (t % 5) ((t + 3) % 5) (added block a t), c) := by
  have turned := before.turned
  have sum : (Sha1.rounds (Sha1.schedule block) registers t).e + added block a t =
      (Sha1.rounds (Sha1.schedule block) registers (t + 1)).a := by
    rw [added, turned.first, turned.second, turned.third, turned.fourth, rol_eq, sum_order]
    rfl
  have next := turned.update (added block a t)
  rw [sum] at next
  exact { turned := next, circular := circular }

theorem choose_eq (x y z : UInt32) : (x &&& (y ^^^ z)) ^^^ z = Sha1.choose x y z := by
  rw [Sha1.choose, ← UInt32.toBitVec_inj]
  ext index
  simp
  grind

theorem majority_eq (x y z : UInt32) :
    ((x ||| y) &&& z) ||| (x &&& y) = Sha1.majority x y z := by
  rw [Sha1.majority, ← UInt32.toBitVec_inj]
  ext index
  simp
  grind

theorem Circular.word_set {b : Words} {t : Nat} (circular : Circular block t b) :
    word (b.set (t % 16) (Sha1.word (Sha1.schedule block) t)) (t % 16) =
      Sha1.word (Sha1.schedule block) t := by
  have target : t % 16 < b.length := by rw [circular.size]; omega
  rw [word_eq, Sha1.word_set target, if_pos rfl]

theorem f_one {i : Nat} (inside : i < 16) {a b : Words} (circular : Circular block i b) :
    f 1 i (a, b) = (update a (i % 5) ((i + 3) % 5) (added block a i), b) := by
  have scheduled : word b i = Sha1.word (Sha1.schedule block) i := by
    rw [← circular.recent i (by omega) (by omega), Nat.mod_eq_of_lt inside]
  simp only [f, added, Sha1.mix, Sha1.roundConstant, if_pos (show i < 20 by omega), choose_eq,
    scheduled, Nat.add_comm _ i]

theorem f_two (size : block.length = 16) {i : Nat} (inside : i < 4) {a b : Words}
    (circular : Circular block (16 + i) b) :
    f 2 i (a, b) = (update a ((16 + i) % 5) ((16 + i + 3) % 5) (added block a (16 + i)),
      b.set ((16 + i) % 16) (Sha1.word (Sha1.schedule block) (16 + i))) := by
  have slot : (16 + i) % 16 = i := by omega
  have stored := circular.blk size (by omega) (by omega)
  have taken := circular.word_set
  rw [slot] at stored taken
  have at1 : (16 + i) % 5 = (1 + i) % 5 := by omega
  have at2 : (16 + i + 1) % 5 = (2 + i) % 5 := by omega
  have at3 : (16 + i + 2) % 5 = (3 + i) % 5 := by omega
  have at4 : (16 + i + 3) % 5 = (4 + i) % 5 := by omega
  have at5 : (16 + i + 4) % 5 = (5 + i) % 5 := by omega
  simp only [f, added, Sha1.mix, Sha1.roundConstant, if_pos (show 16 + i < 20 by omega),
    choose_eq, slot, stored, taken, at1, at2, at3, at4, at5]

theorem positions {start i : Nat} (aligned : start % 5 = 0) :
    (start + i) % 5 = i % 5 ∧ (start + i + 1) % 5 = (1 + i) % 5 ∧
      (start + i + 2) % 5 = (2 + i) % 5 ∧ (start + i + 3) % 5 = (3 + i) % 5 ∧
      (start + i + 4) % 5 = (4 + i) % 5 := by
  omega

theorem f_three (size : block.length = 16) {i : Nat} (inside : i < 20) {a b : Words}
    (circular : Circular block (20 + i) b) :
    f 3 i (a, b) = (update a ((20 + i) % 5) ((20 + i + 3) % 5) (added block a (20 + i)),
      b.set ((20 + i) % 16) (Sha1.word (Sha1.schedule block) (20 + i))) := by
  have slot : (20 + i) % 16 = (i + 4) % 16 := by omega
  have stored := circular.blk size (by omega) (by omega)
  have taken := circular.word_set
  rw [slot] at stored taken
  rcases positions (i := i) (show 20 % 5 = 0 by rfl) with ⟨at0, at1, at2, at3, at4⟩
  simp only [f, added, Sha1.mix, Sha1.roundConstant, if_neg (show ¬ 20 + i < 20 by omega),
    if_pos (show 20 + i < 40 by omega), Sha1.parity, slot, stored, taken, at0, at1, at2, at3, at4]

theorem f_four (size : block.length = 16) {i : Nat} (inside : i < 20) {a b : Words}
    (circular : Circular block (40 + i) b) :
    f 4 i (a, b) = (update a ((40 + i) % 5) ((40 + i + 3) % 5) (added block a (40 + i)),
      b.set ((40 + i) % 16) (Sha1.word (Sha1.schedule block) (40 + i))) := by
  have slot : (40 + i) % 16 = (i + 8) % 16 := by omega
  have stored := circular.blk size (by omega) (by omega)
  have taken := circular.word_set
  rw [slot] at stored taken
  rcases positions (i := i) (show 40 % 5 = 0 by rfl) with ⟨at0, at1, at2, at3, at4⟩
  simp only [f, added, Sha1.mix, Sha1.roundConstant, if_neg (show ¬ 40 + i < 20 by omega),
    if_neg (show ¬ 40 + i < 40 by omega), if_pos (show 40 + i < 60 by omega), majority_eq, slot,
    stored, taken, at0, at1, at2, at3, at4]

theorem f_five (size : block.length = 16) {i : Nat} (inside : i < 20) {a b : Words}
    (circular : Circular block (60 + i) b) :
    f 5 i (a, b) = (update a ((60 + i) % 5) ((60 + i + 3) % 5) (added block a (60 + i)),
      b.set ((60 + i) % 16) (Sha1.word (Sha1.schedule block) (60 + i))) := by
  have slot : (60 + i) % 16 = (i + 12) % 16 := by omega
  have stored := circular.blk size (by omega) (by omega)
  have taken := circular.word_set
  rw [slot] at stored taken
  rcases positions (i := i) (show 60 % 5 = 0 by rfl) with ⟨at0, at1, at2, at3, at4⟩
  simp only [f, added, Sha1.mix, Sha1.roundConstant, if_neg (show ¬ 60 + i < 20 by omega),
    if_neg (show ¬ 60 + i < 40 by omega), if_neg (show ¬ 60 + i < 60 by omega), Sha1.parity,
    slot, stored, taken, at0, at1, at2, at3, at4]

/-! ## The whole compression -/

theorem staticFor_before (state start count : Nat)
    (step : ∀ i, i < count → ∀ ab, Before block registers (start + i) ab →
      Before block registers (start + i + 1) (f state i ab))
    {ab : Words × Words} (before : Before block registers start ab) :
    Before block registers (start + count) (staticFor count state ab) := by
  induction count with
  | zero => exact before
  | succ count induction =>
      have shorter := induction fun i inside => step i (by omega)
      rw [staticFor, List.range_succ, List.foldl_append]
      exact step count (by omega) _ shorter

theorem sha1_compress (size : block.length = 16) :
    sha1 registers.words block = (Sha1.compress registers block).words := by
  have start : Before block registers 0 (registers.words.reverse, block) :=
    { turned := turned_zero registers, circular := circular_zero size }
  have one := staticFor_before 1 0 16 (fun i inside ab before => by
    rw [Nat.zero_add] at before ⊢
    rw [f_one inside before.circular]
    exact before.round (before.circular.keep inside)) start
  have two := staticFor_before 2 16 4 (fun i inside ab before => by
    rw [f_two size inside before.circular]
    exact before.round (before.circular.set (by omega))) one
  have three := staticFor_before 3 20 20 (fun i inside ab before => by
    rw [f_three size inside before.circular]
    exact before.round (before.circular.set (by omega))) two
  have four := staticFor_before 4 40 20 (fun i inside ab before => by
    rw [f_four size inside before.circular]
    exact before.round (before.circular.set (by omega))) three
  have five := staticFor_before 5 60 20 (fun i inside ab before => by
    rw [f_five size inside before.circular]
    exact before.round (before.circular.set (by omega))) four
  exact five.turned.sum rfl registers

end

/-! ## The blocks of a key -/

def guid : Bytes := ascii "258EAFA5-E914-47DA-95CA-C5AB0DC85B11"

theorem pad_key {key : Bytes} (size : key.length = 24) :
    Sha1.pad (key ++ guid) = key ++ (guid ++ Sha1.padding 60) := by
  have guidSize : guid.length = 36 := by
    rw [guid, ascii_ofList]
    rfl
  rw [Sha1.pad, List.length_append, size, guidSize, List.append_assoc]

/-- The words of `generate` for a key. -/
def keyWords (key : Bytes) : Words :=
  (List.range 6).map fun i => UInt32.ofNat (BigEndian.decode ((key.drop (4 * i)).take 4))

theorem blockWords_key {key : Bytes} (size : key.length = 24) (tail : Bytes) :
    Sha1.blockWords (key ++ tail) = keyWords key ++ (List.range 10).map fun i =>
      UInt32.ofNat (BigEndian.decode ((tail.drop (4 * i)).take 4)) := by
  rw [Sha1.blockWords, show 16 = 6 + 10 by rfl, List.range_add, List.map_append, List.map_map]
  congr 1
  · apply List.map_congr_left
    rintro i inside
    have low : i < 6 := List.mem_range.mp inside
    rw [List.drop_append_of_le_length (by omega),
      List.take_append_of_le_length (by rw [List.length_drop]; omega)]
  · apply List.map_congr_left
    rintro i inside
    have position : 4 * (6 + i) = key.length + 4 * i := by omega
    rw [Function.comp_apply, position, List.drop_append, List.drop_eq_nil_of_le (by omega),
      List.nil_append, Nat.add_sub_cancel_left]

def guidWords : Words :=
  [0x32353845, 0x41464135, 0x2d453931, 0x342d3437, 0x44412d39, 0x3543412d, 0x43354142,
    0x30444338, 0x35423131, 0x80000000]

def lastBlock : Words := List.replicate 15 0 ++ [480]

theorem blocks_key {key : Bytes} (size : key.length = 24) :
    Sha1.blocks (Sha1.pad (key ++ guid)) ((Sha1.pad (key ++ guid)).length / 64) =
      [keyWords key ++ guidWords, lastBlock] := by
  have tailSize : (guid ++ Sha1.padding 60).length = 104 := by
    rw [guid, ascii_ofList]
    rfl
  have first : (List.range 10).map (fun i => UInt32.ofNat (BigEndian.decode
      (((guid ++ Sha1.padding 60).drop (4 * i)).take 4))) = guidWords := by
    rw [guid, ascii_ofList]
    decide +kernel
  have second : Sha1.blockWords ((guid ++ Sha1.padding 60).drop 40) = lastBlock := by
    rw [guid, ascii_ofList]
    decide +kernel
  have behind : (key ++ (guid ++ Sha1.padding 60)).drop 64 = (guid ++ Sha1.padding 60).drop 40 := by
    rw [List.drop_append, List.drop_eq_nil_of_le (by omega), List.nil_append, size]
  have count : (key ++ (guid ++ Sha1.padding 60)).length / 64 = 2 := by
    rw [List.length_append, size, tailSize]
  rw [pad_key size, count, Sha1.blocks, Sha1.blocks, Sha1.blocks, blockWords_key size, first,
    behind, second]

theorem generate_words (key : Bytes) : generate key =
    base64 ((sha1 (sha1 Sha1.initial.words (keyWords key ++ guidWords)) lastBlock).flatMap
      fun value => BigEndian.encode 4 value.toNat) := rfl

/-! ## The characters -/

theorem digit_eq (value : UInt8) : digit value = Base64.digit value.toNat := rfl

theorem parts (byte : Byte) :
    ((byte >>> 2) &&& 63).toNat = byte.toNat / 4 ∧
      ((byte &&& 3) <<< 4).toNat = 2 ^ 4 * (byte.toNat % 4) ∧
      ((byte &&& 240) >>> 4).toNat = byte.toNat / 16 ∧
      ((byte &&& 15) <<< 2).toNat = 2 ^ 2 * (byte.toNat % 16) ∧
      ((byte &&& 192) >>> 6).toNat = byte.toNat / 64 ∧
      (byte &&& 63).toNat = byte.toNat % 64 := by
  revert byte
  apply forall_byte
  decide +kernel

theorem digit_or {high low : UInt8} {count value : Nat} (scaled : high.toNat = 2 ^ count * value)
    (small : low.toNat < 2 ^ count) :
    digit (high ||| low) = Base64.digit (value * 2 ^ count + low.toNat) := by
  rw [digit_eq, UInt8.toNat_or, scaled, ← Nat.two_pow_add_eq_or_of_lt small, Nat.mul_comm]

theorem digit_second (first second : Byte) :
    digit (((first &&& 3) <<< 4) ||| ((second &&& 240) >>> 4)) =
      Base64.digit (first.toNat % 4 * 16 + second.toNat / 16) := by
  have bound := second.toNat_lt
  rcases parts first with ⟨-, low, -⟩
  rcases parts second with ⟨-, -, high, -⟩
  rw [digit_or low (by rw [high]; omega), high]
  rfl

theorem digit_third (second third : Byte) :
    digit (((second &&& 15) <<< 2) ||| ((third &&& 192) >>> 6)) =
      Base64.digit (second.toNat % 16 * 4 + third.toNat / 64) := by
  have bound := third.toNat_lt
  rcases parts second with ⟨-, -, -, low, -⟩
  rcases parts third with ⟨-, -, -, -, high, -⟩
  rw [digit_or low (by rw [high]; omega), high]
  rfl

/-- Where no single byte is left over, `base64` is the standard encoding. -/
theorem base64_eq : (source : Bytes) → source.length % 3 ≠ 1 →
    base64 source = Base64.encode source
  | [], _ => rfl
  | [first], single => absurd rfl single
  | [first, second], _ => by
      rcases parts first with ⟨high, -⟩
      rcases parts second with ⟨-, -, -, low, -⟩
      have last : 2 ^ 2 * (second.toNat % 16) = second.toNat % 16 * 4 := by omega
      rw [base64, digit_second, digit_eq, digit_eq, high, low, last]
      rfl
  | first :: second :: third :: rest, single => by
      have shorter := base64_eq rest (by
        rw [List.length_cons, List.length_cons, List.length_cons] at single
        omega)
      rcases parts first with ⟨high, -⟩
      rcases parts third with ⟨-, -, -, -, -, low⟩
      rw [base64, digit_second, digit_third, digit_eq, digit_eq, high, low, shorter]
      rfl

def acceptValue (key : Bytes) : Bytes := Base64.encode (Sha1.digest (key ++ guid))

theorem generate_acceptValue (key : Bytes) (size : key.length = 24) :
    generate key = acceptValue key := by
  have hash : (Sha1.hash (key ++ guid)).words =
      sha1 (sha1 Sha1.initial.words (keyWords key ++ guidWords)) lastBlock := by
    rw [sha1_compress (by rfl), sha1_compress (by rfl), Sha1.hash, blocks_key size]
    rfl
  rw [generate_words, ← hash, acceptValue, Sha1.digest]
  apply base64_eq
  show 20 % 3 ≠ 1
  decide

theorem generate_sample :
    (ascii "dGhlIHNhbXBsZSBub25jZQ==").length = 24 ∧
      generate (ascii "dGhlIHNhbXBsZSBub25jZQ==") =
        acceptValue (ascii "dGhlIHNhbXBsZSBub25jZQ==") :=
  ⟨by decide, generate_acceptValue _ (by decide)⟩

end MyBookSources.WebSocketHandshake
