import MyBookSources.Foundation.Base64
import MyBookSources.SendMail.SmtpSocket

/-! # Base64 there and back

`encode` shifts its bytes as signed numbers. In a full group of three the first lookup is
not masked, so a byte of `0x80` or more looks outside the table, and the sign of the second
and of the third byte runs over the bits of their neighbour. The tails of one and of two
bytes mask each byte before they shift it.
-/

namespace MyBookSources.SendMail.Base64Util

open Base64 (code digit_ne digit_range toNat_digit toNat_two toNat_three toNat_four)

/-! ## Decoding -/

def DeBase64Tab : List Nat :=
  List.replicate 43 0 ++ [62] ++ List.replicate 3 0 ++ [63] ++ List.range' 52 10 ++
    List.replicate 7 0 ++ List.range' 0 26 ++ List.replicate 6 0 ++ List.range' 26 26

/-- The table at a `char`. `around` is what memory holds around the table. -/
def decodedAt (around : Int → Byte) (char : Byte) : BitVec 32 :=
  let index := (promoted char).toInt
  if 0 ≤ index ∧ index < 123 then BitVec.ofNat 32 (DeBase64Tab.getD char.toNat 0)
  else promoted (around index)

/-- What a call returns and what it writes in front of the final zero. -/
structure Decoded where
  lenDest : Nat
  written : Bytes
  deriving DecidableEq

def Decoded.behind (front : Bytes) (decoded : Decoded) : Decoded :=
  ⟨decoded.lenDest, front ++ decoded.written⟩

/-- The loop of `decode`, `turns` turns before its end and with `pSource` at `position`. -/
def decodeLoop (around : Int → Byte) (memory : Nat → Byte) (chMask : Byte) (maxDest : Nat) :
    (turns position lenDest : Nat) → Decoded
  | 0, _, lenDest => ⟨lenDest, []⟩
  | turns + 1, position, lenDest =>
      let two := (decodedAt around (memory position) <<< 18) +
        (decodedAt around (memory (position + 1)) <<< 12)
      if maxDest ≤ lenDest + 1 then ⟨lenDest + 1, []⟩
      else
        let first := UInt8.ofBitVec (((two &&& 0x00FF0000) >>> 16).setWidth 8)
        if memory (position + 2) = chMask then
          (decodeLoop around memory chMask maxDest turns (position + 2) (lenDest + 1)).behind
            [first]
        else
          let three := two + (decodedAt around (memory (position + 2)) <<< 6)
          if maxDest ≤ lenDest + 2 then ⟨lenDest + 2, [first]⟩
          else
            let second := UInt8.ofBitVec (((three &&& 0x0000FF00) >>> 8).setWidth 8)
            if memory (position + 3) = chMask then
              (decodeLoop around memory chMask maxDest turns (position + 3) (lenDest + 2)).behind
                [first, second]
            else
              let four := three + decodedAt around (memory (position + 3))
              if maxDest ≤ lenDest + 3 then ⟨lenDest + 3, [first, second]⟩
              else
                let third := UInt8.ofBitVec ((four &&& 0x000000FF).setWidth 8)
                (decodeLoop around memory chMask maxDest turns (position + 4)
                  (lenDest + 3)).behind [first, second, third]

def decode (around : Int → Byte) (memory : Nat → Byte) (lenSource : Nat) (chMask : Byte)
    (maxDest : Nat) : Decoded :=
  decodeLoop around memory chMask maxDest ((lenSource + 3) / 4) 0 0

/-- What `encode` returns. -/
def encodedLength (maxDest : Nat) : Nat → Bytes → Nat
  | lenDest, _ :: _ :: _ :: rest =>
      if maxDest ≤ lenDest + 4 then 0 else encodedLength maxDest (lenDest + 4) rest
  | lenDest, [_, _] => if maxDest ≤ lenDest + 4 then 0 else lenDest + 4
  | lenDest, [_] => if maxDest ≤ lenDest + 4 then 0 else lenDest + 4
  | lenDest, [] => lenDest

/-- The text stands in memory from `position` on. -/
def Spells (memory : Nat → Byte) : Nat → Bytes → Prop
  | _, [] => True
  | position, char :: text => memory position = char ∧ Spells memory (position + 1) text

instance (memory : Nat → Byte) : (position : Nat) → (text : Bytes) →
    Decidable (Spells memory position text)
  | _, [] => isTrue trivial
  | position, char :: text =>
      have := instDecidableSpells memory (position + 1) text
      inferInstanceAs (Decidable (memory position = char ∧ Spells memory (position + 1) text))

/-- Whatever memory holds around the tables and behind the encoded text, decoding it gives
back the source. -/
def RoundTrips (source : Bytes) (maxDest maxDest2 : Nat) : Prop :=
  ∀ (outside around : Int → Byte) (memory : Nat → Byte),
    Spells memory 0 (encode outside maxDest 0 source) →
    decode around memory (encodedLength maxDest 0 source) 61 maxDest2 =
      ⟨source.length, source⟩

/-- In every full group the first byte is below `0x80`, and so is the second one unless the
low bits of the first are ones, and the third one unless those of the second are. -/
def SignsHarmless : Bytes → Prop
  | c1 :: c2 :: c3 :: rest =>
      (c1.toNat < 128 ∧ (c2.toNat < 128 ∨ c1.toNat % 4 = 3) ∧
        (c3.toNat < 128 ∨ c2.toNat % 16 = 15)) ∧ SignsHarmless rest
  | _ => True

instance : (source : Bytes) → Decidable (SignsHarmless source)
  | c1 :: c2 :: c3 :: rest =>
      have := instDecidableSignsHarmless rest
      inferInstanceAs (Decidable ((c1.toNat < 128 ∧ (c2.toNat < 128 ∨ c1.toNat % 4 = 3) ∧
        (c3.toNat < 128 ∨ c2.toNat % 16 = 15)) ∧ SignsHarmless rest))
  | [_, _] => isTrue trivial
  | [_] => isTrue trivial
  | [] => isTrue trivial

/-! ## Promoted bytes -/

theorem toNat_promoted (c : Byte) :
    (promoted c).toNat = if c.toNat < 128 then c.toNat else 2 ^ 32 - 2 ^ 8 + c.toNat := by
  have bound := c.toNat_lt
  rw [promoted, BitVec.toNat_signExtend, BitVec.toNat_setWidth, BitVec.msb_eq_decide,
    UInt8.toNat_toBitVec]
  simp only [decide_eq_true_eq]
  split <;> split <;> omega

theorem toInt_promoted {c : Byte} (low : c.toNat < 128) : (promoted c).toInt = c.toNat := by
  have value := toNat_promoted c
  rw [if_pos low] at value
  rw [BitVec.toInt_eq_toNat_of_lt (by omega), value]

/-! ## Digits -/

def digit (value : Nat) : Byte := EnBase64Tab.getD value 0

theorem digit_eq (value : Nat) : digit value = Base64.digit value := rfl

theorem digit_spec {value : Nat} (small : value < 64) (around : Int → Byte) :
    decodedAt around (digit value) = BitVec.ofNat 32 value ∧ digit value ≠ 61 := by
  have range := digit_range small
  have decoded : ∀ value : Fin 64, DeBase64Tab.getD (code value) 0 = value := by decide +kernel
  rw [digit_eq]
  constructor
  · rw [decodedAt, toInt_promoted (by omega), if_pos ⟨by omega, by omega⟩, toNat_digit small,
      decoded ⟨value, small⟩]
  · exact digit_ne small (.inr rfl)

theorem tableAt_of_lt (outside : Int → Byte) {index : BitVec 32} (small : index.toNat < 64) :
    tableAt outside index = digit index.toNat := by
  have value : index.toInt = index.toNat := BitVec.toInt_eq_toNat_of_lt (by omega)
  rw [tableAt, if_pos (by omega)]
  rfl

theorem toNat_shifted (c : Byte) (shift : Nat) :
    ((promoted c).sshiftRight shift).toNat =
      if c.toNat < 128 then c.toNat / 2 ^ shift
      else 2 ^ 32 - 1 - (2 ^ 8 - 1 - c.toNat) / 2 ^ shift := by
  have bound := c.toNat_lt
  have value := toNat_promoted c
  rw [BitVec.toNat_sshiftRight, BitVec.msb_eq_decide]
  simp only [decide_eq_true_eq, Nat.shiftRight_eq_div_pow]
  by_cases low : c.toNat < 128
  · rw [if_pos low] at value
    rw [if_pos low, if_neg (by omega), value]
  · rw [if_neg low] at value
    have behind : 2 ^ 32 - 1 - (promoted c).toNat = 2 ^ 8 - 1 - c.toNat := by omega
    rw [if_neg low, if_pos (by omega), behind]

theorem toNat_masked {mask : BitVec 32} (bits : Nat) (ones : mask.toNat = 2 ^ bits - 1)
    (value : BitVec 32) : (value &&& mask).toNat = value.toNat % 2 ^ bits := by
  rw [BitVec.toNat_and, ones, Nat.and_two_pow_sub_one_eq_mod]

theorem tableAt_first (outside : Int → Byte) (c : Byte) :
    tableAt outside ((promoted c).sshiftRight 2) =
      if c.toNat < 128 then digit (c.toNat / 4)
      else outside ((promoted c).sshiftRight 2).toInt := by
  have value := toNat_shifted c 2
  split
  · next low =>
    rw [if_pos low] at value
    rw [tableAt_of_lt outside (by omega), value]
    rfl
  · next high =>
    rw [if_neg high] at value
    have negative : ((promoted c).sshiftRight 2).toInt < 0 := by
      rw [BitVec.toInt_eq_toNat_cond, if_neg (by omega)]
      omega
    rw [tableAt, if_neg (by omega)]

theorem or_low {bits front back : Nat} (low : back < 2 ^ bits) :
    front * 2 ^ bits ||| back = front * 2 ^ bits + back := by
  rw [Nat.mul_comm, ← Nat.two_pow_add_eq_or_of_lt low]

theorem or_high (width : Nat) {bits front back : Nat} (small : front < 2 ^ width)
    (low : back < 2 ^ bits) :
    front * 2 ^ bits ||| ((2 ^ width - 1) * 2 ^ bits + back) =
      (2 ^ width - 1) * 2 ^ bits + back := by
  have ones : front ||| (2 ^ width - 1) = 2 ^ width - 1 := by
    have positive := Nat.two_pow_pos width
    have above : 2 ^ width - 1 ≤ front ||| (2 ^ width - 1) := Nat.right_le_or
    have below : front ||| (2 ^ width - 1) < 2 ^ width := Nat.or_lt_two_pow small (by omega)
    omega
  rw [← or_low low, ← Nat.or_assoc, ← Nat.shiftLeft_eq, ← Nat.shiftLeft_eq,
    ← Nat.shiftLeft_or_distrib, ones]

theorem toNat_second (c1 c2 : Byte) :
    (((promoted c1 <<< 4) ||| (promoted c2).sshiftRight 4) &&& 0x3F).toNat =
      if c2.toNat < 128 then c1.toNat % 4 * 16 + c2.toNat / 16 else 48 + c2.toNat / 16 := by
  have bound1 := c1.toNat_lt
  have bound2 := c2.toNat_lt
  have front : (promoted c1 <<< 4 &&& 0x3F).toNat = c1.toNat % 4 * 2 ^ 4 := by
    rw [toNat_masked 6 rfl, BitVec.toNat_shiftLeft, Nat.shiftLeft_eq, toNat_promoted]
    split <;> omega
  have back : ((promoted c2).sshiftRight 4 &&& 0x3F).toNat =
      if c2.toNat < 128 then c2.toNat / 16 else 48 + c2.toNat / 16 := by
    rw [toNat_masked 6 rfl, toNat_shifted]
    split <;> omega
  rw [BitVec.and_or_distrib_right, BitVec.toNat_or, front, back]
  split
  · exact or_low (by omega)
  · exact or_high 2 (by omega) (by omega)

theorem toNat_third (c2 c3 : Byte) :
    (((promoted c2 <<< 2) ||| (promoted c3).sshiftRight 6) &&& 0x3F).toNat =
      if c3.toNat < 128 then c2.toNat % 16 * 4 + c3.toNat / 64 else 60 + c3.toNat / 64 := by
  have bound2 := c2.toNat_lt
  have bound3 := c3.toNat_lt
  have front : (promoted c2 <<< 2 &&& 0x3F).toNat = c2.toNat % 16 * 2 ^ 2 := by
    rw [toNat_masked 6 rfl, BitVec.toNat_shiftLeft, Nat.shiftLeft_eq, toNat_promoted]
    split <;> omega
  have back : ((promoted c3).sshiftRight 6 &&& 0x3F).toNat =
      if c3.toNat < 128 then c3.toNat / 64 else 60 + c3.toNat / 64 := by
    rw [toNat_masked 6 rfl, toNat_shifted]
    split <;> omega
  rw [BitVec.and_or_distrib_right, BitVec.toNat_or, front, back]
  split
  · exact or_low (by omega)
  · exact or_high 4 (by omega) (by omega)

theorem toNat_fourth (c3 : Byte) : (promoted c3 &&& 0x3F).toNat = c3.toNat % 64 := by
  rw [toNat_masked 6 rfl, toNat_promoted]
  split <;> omega

theorem toNat_tail (c : Byte) :
    ((promoted c &&& 0xFC).sshiftRight 2).toNat = c.toNat / 4 ∧
    ((promoted c &&& 0x03) <<< 4).toNat = c.toNat % 4 * 2 ^ 4 ∧
    ((promoted c &&& 0xF0).sshiftRight 4).toNat = c.toNat / 16 ∧
    ((promoted c &&& 0x0F) <<< 2).toNat = c.toNat % 16 * 4 := by
  have bound := c.toNat_lt
  refine ⟨?_, ?_, ?_, ?_⟩
  · rw [BitVec.sshiftRight_and_distrib, toNat_masked 6 rfl, toNat_shifted]
    split <;> omega
  · rw [BitVec.toNat_shiftLeft, Nat.shiftLeft_eq, toNat_masked 2 rfl, toNat_promoted]
    split <;> omega
  · rw [BitVec.sshiftRight_and_distrib, toNat_masked 4 rfl, toNat_shifted]
    split <;> omega
  · rw [BitVec.toNat_shiftLeft, Nat.shiftLeft_eq, toNat_masked 4 rfl, toNat_promoted]
    split <;> omega

/-! ## The bytes of four digits -/

theorem toNat_high_byte (nValue : BitVec 32) :
    (UInt8.ofBitVec (((nValue &&& 0x00FF0000) >>> 16).setWidth 8)).toNat =
      nValue.toNat / 2 ^ 16 % 2 ^ 8 := by
  have mask : (0x00FF0000 : BitVec 32).toNat >>> 16 = 2 ^ 8 - 1 := rfl
  rw [UInt8.toNat_ofBitVec, BitVec.toNat_setWidth, BitVec.toNat_ushiftRight, BitVec.toNat_and,
    Nat.shiftRight_and_distrib, mask, Nat.and_two_pow_sub_one_eq_mod,
    Nat.shiftRight_eq_div_pow, Nat.mod_mod]

theorem toNat_middle_byte (nValue : BitVec 32) :
    (UInt8.ofBitVec (((nValue &&& 0x0000FF00) >>> 8).setWidth 8)).toNat =
      nValue.toNat / 2 ^ 8 % 2 ^ 8 := by
  have mask : (0x0000FF00 : BitVec 32).toNat >>> 8 = 2 ^ 8 - 1 := rfl
  rw [UInt8.toNat_ofBitVec, BitVec.toNat_setWidth, BitVec.toNat_ushiftRight, BitVec.toNat_and,
    Nat.shiftRight_and_distrib, mask, Nat.and_two_pow_sub_one_eq_mod,
    Nat.shiftRight_eq_div_pow, Nat.mod_mod]

theorem toNat_low_byte (nValue : BitVec 32) :
    (UInt8.ofBitVec ((nValue &&& 0x000000FF).setWidth 8)).toNat = nValue.toNat % 2 ^ 8 := by
  have mask : (0x000000FF : BitVec 32).toNat = 2 ^ 8 - 1 := rfl
  rw [UInt8.toNat_ofBitVec, BitVec.toNat_setWidth, BitVec.toNat_and, mask,
    Nat.and_two_pow_sub_one_eq_mod, Nat.mod_mod]

section

variable {v0 v1 v2 v3 : Nat} (small0 : v0 < 64) (small1 : v1 < 64) (small2 : v2 < 64)
  (small3 : v3 < 64)

include small0 small1 in
theorem first_byte : UInt8.ofBitVec (((((BitVec.ofNat 32 v0 <<< 18) +
    (BitVec.ofNat 32 v1 <<< 12)) &&& 0x00FF0000) >>> 16).setWidth 8) =
    UInt8.ofNat (v0 * 4 + v1 / 16) := by
  rw [← UInt8.toNat_inj, toNat_high_byte, toNat_two small0 small1, UInt8.toNat_ofNat']
  omega

include small0 small1 small2 in
theorem second_byte : UInt8.ofBitVec (((((BitVec.ofNat 32 v0 <<< 18) +
    (BitVec.ofNat 32 v1 <<< 12) + (BitVec.ofNat 32 v2 <<< 6)) &&& 0x0000FF00) >>> 8).setWidth 8) =
    UInt8.ofNat (v1 % 16 * 16 + v2 / 4) := by
  rw [← UInt8.toNat_inj, toNat_middle_byte, toNat_three small0 small1 small2,
    UInt8.toNat_ofNat']
  omega

include small0 small1 small2 small3 in
theorem third_byte : UInt8.ofBitVec ((((BitVec.ofNat 32 v0 <<< 18) +
    (BitVec.ofNat 32 v1 <<< 12) + (BitVec.ofNat 32 v2 <<< 6) + BitVec.ofNat 32 v3) &&&
    0x000000FF).setWidth 8) = UInt8.ofNat (v2 % 4 * 64 + v3) := by
  rw [← UInt8.toNat_inj, toNat_low_byte, toNat_four small0 small1 small2 small3,
    UInt8.toNat_ofNat']
  omega

variable {memory : Nat → Byte} {maxDest position lenDest : Nat}

include small0 small1 in
theorem decodeLoop_one {rest : Bytes} (around : Int → Byte) (turns : Nat)
    (spelled : Spells memory position (digit v0 :: digit v1 :: 61 :: rest))
    (room : lenDest + 1 < maxDest) :
    decodeLoop around memory 61 maxDest (turns + 1) position lenDest =
      (decodeLoop around memory 61 maxDest turns (position + 2) (lenDest + 1)).behind
        [UInt8.ofNat (v0 * 4 + v1 / 16)] := by
  rcases spelled with ⟨at0, at1, at2, _⟩
  rw [decodeLoop]
  simp only [at0, at1, at2, (digit_spec small0 around).1, (digit_spec small1 around).1,
    first_byte small0 small1]
  rw [if_neg (by omega), if_pos trivial]

include small0 small1 small2 in
theorem decodeLoop_two {rest : Bytes} (around : Int → Byte) (turns : Nat)
    (spelled : Spells memory position (digit v0 :: digit v1 :: digit v2 :: 61 :: rest))
    (room : lenDest + 2 < maxDest) :
    decodeLoop around memory 61 maxDest (turns + 1) position lenDest =
      (decodeLoop around memory 61 maxDest turns (position + 3) (lenDest + 2)).behind
        [UInt8.ofNat (v0 * 4 + v1 / 16), UInt8.ofNat (v1 % 16 * 16 + v2 / 4)] := by
  rcases spelled with ⟨at0, at1, at2, at3, _⟩
  rw [decodeLoop]
  simp only [at0, at1, at2, at3, (digit_spec small0 around).1, (digit_spec small1 around).1,
    (digit_spec small2 around).1, (digit_spec small2 around).2, first_byte small0 small1,
    second_byte small0 small1 small2, if_false]
  rw [if_neg (by omega), if_neg (by omega), if_pos trivial]

include small0 small1 small2 small3 in
theorem decodeLoop_three {rest : Bytes} (around : Int → Byte) (turns : Nat)
    (spelled : Spells memory position (digit v0 :: digit v1 :: digit v2 :: digit v3 :: rest))
    (room : lenDest + 3 < maxDest) :
    decodeLoop around memory 61 maxDest (turns + 1) position lenDest =
      (decodeLoop around memory 61 maxDest turns (position + 4) (lenDest + 3)).behind
        [UInt8.ofNat (v0 * 4 + v1 / 16), UInt8.ofNat (v1 % 16 * 16 + v2 / 4),
          UInt8.ofNat (v2 % 4 * 64 + v3)] := by
  rcases spelled with ⟨at0, at1, at2, at3, _⟩
  rw [decodeLoop]
  simp only [at0, at1, at2, at3, (digit_spec small0 around).1, (digit_spec small1 around).1,
    (digit_spec small2 around).1, (digit_spec small2 around).2, (digit_spec small3 around).1,
    (digit_spec small3 around).2, first_byte small0 small1,
    second_byte small0 small1 small2, third_byte small0 small1 small2 small3, if_false]
  rw [if_neg (by omega), if_neg (by omega), if_neg (by omega)]

end

/-! ## There and back -/

/-- The value of the first digit of a group, where the bytes around the table are `A`. -/
def firstValue (c1 : Byte) : Nat := if c1.toNat < 128 then c1.toNat / 4 else 0

def secondValue (c1 c2 : Byte) : Nat :=
  if c2.toNat < 128 then c1.toNat % 4 * 16 + c2.toNat / 16 else 48 + c2.toNat / 16

def thirdValue (c2 c3 : Byte) : Nat :=
  if c3.toNat < 128 then c2.toNat % 16 * 4 + c3.toNat / 64 else 60 + c3.toNat / 64

theorem firstValue_lt (c1 : Byte) : firstValue c1 < 64 := by
  have bound := c1.toNat_lt
  unfold firstValue
  split <;> omega

theorem secondValue_lt (c1 c2 : Byte) : secondValue c1 c2 < 64 := by
  have bound := c2.toNat_lt
  unfold secondValue
  split <;> omega

theorem thirdValue_lt (c2 c3 : Byte) : thirdValue c2 c3 < 64 := by
  have bound := c3.toNat_lt
  unfold thirdValue
  split <;> omega

theorem tableAt_masked (outside : Int → Byte) (c1 c2 c3 : Byte) :
    tableAt outside (((promoted c1 <<< 4) ||| (promoted c2).sshiftRight 4) &&& 0x3F) =
        digit (secondValue c1 c2) ∧
      tableAt outside (((promoted c2 <<< 2) ||| (promoted c3).sshiftRight 6) &&& 0x3F) =
        digit (thirdValue c2 c3) ∧
      tableAt outside (promoted c3 &&& 0x3F) = digit (c3.toNat % 64) := by
  have second : (((promoted c1 <<< 4) ||| (promoted c2).sshiftRight 4) &&& 0x3F).toNat =
      secondValue c1 c2 := toNat_second c1 c2
  have third : (((promoted c2 <<< 2) ||| (promoted c3).sshiftRight 6) &&& 0x3F).toNat =
      thirdValue c2 c3 := toNat_third c2 c3
  have fourth := toNat_fourth c3
  have secondSmall := secondValue_lt c1 c2
  have thirdSmall := thirdValue_lt c2 c3
  constructor
  · rw [tableAt_of_lt outside (by omega), second]
  · constructor
    · rw [tableAt_of_lt outside (by omega), third]
    · rw [tableAt_of_lt outside (by omega), fourth]

@[elab_as_elim]
theorem groups_induction {motive : Bytes → Prop} (nil : motive []) (one : ∀ c1, motive [c1])
    (two : ∀ c1 c2, motive [c1, c2])
    (group : ∀ c1 c2 c3 rest, motive rest → motive (c1 :: c2 :: c3 :: rest)) :
    ∀ source, motive source
  | [] => nil
  | [c1] => one c1
  | [c1, c2] => two c1 c2
  | c1 :: c2 :: c3 :: rest => group c1 c2 c3 rest (groups_induction nil one two group rest)

theorem encode_three (outside : Int → Byte) {maxDest lenDest : Nat} (c1 c2 c3 : Byte)
    (rest : Bytes) (room : lenDest + 4 < maxDest) :
    encode outside maxDest lenDest (c1 :: c2 :: c3 :: rest) =
      tableAt outside ((promoted c1).sshiftRight 2) :: digit (secondValue c1 c2) ::
        digit (thirdValue c2 c3) :: digit (c3.toNat % 64) ::
          encode outside maxDest (lenDest + 4) rest := by
  rcases tableAt_masked outside c1 c2 c3 with ⟨second, third, fourth⟩
  rw [encode, if_neg (by omega), second, third, fourth]
  rfl

theorem encode_two (outside : Int → Byte) {maxDest lenDest : Nat} (c1 c2 : Byte)
    (room : lenDest + 4 < maxDest) :
    encode outside maxDest lenDest [c1, c2] =
      [digit (c1.toNat / 4), digit (c1.toNat % 4 * 16 + c2.toNat / 16),
        digit (c2.toNat % 16 * 4), 61] := by
  rcases toNat_tail c1 with ⟨first1, front1, _, _⟩
  rcases toNat_tail c2 with ⟨_, _, back2, last2⟩
  have bound1 := c1.toNat_lt
  have bound2 := c2.toNat_lt
  have second : (((promoted c1 &&& 0x03) <<< 4) ||| (promoted c2 &&& 0xF0).sshiftRight 4).toNat =
      c1.toNat % 4 * 16 + c2.toNat / 16 := by
    rw [BitVec.toNat_or, front1, back2]
    exact or_low (by omega)
  rw [encode, if_neg (by omega), tableAt_of_lt outside (by omega), first1,
    tableAt_of_lt outside (by omega), second, tableAt_of_lt outside (by omega), last2]

theorem encode_one (outside : Int → Byte) {maxDest lenDest : Nat} (c1 : Byte)
    (room : lenDest + 4 < maxDest) :
    encode outside maxDest lenDest [c1] =
      [digit (c1.toNat / 4), digit (c1.toNat % 4 * 16), 61, 61] := by
  rcases toNat_tail c1 with ⟨first1, front1, _, _⟩
  have bound1 := c1.toNat_lt
  rw [encode, if_neg (by omega), tableAt_of_lt outside (by omega), first1,
    tableAt_of_lt outside (by omega), front1]
  rfl

/-- Where no sign gets in the way, the memory around the table is not read. -/
theorem encode_of_signsHarmless (outside other : Int → Byte) {maxDest : Nat} {source : Bytes}
    (harmless : SignsHarmless source) {lenDest : Nat}
    (room : lenDest + 4 * ((source.length + 2) / 3) < maxDest) :
    encode outside maxDest lenDest source = encode other maxDest lenDest source := by
  induction source using groups_induction generalizing lenDest with
  | nil => rfl
  | one c1 =>
      have enough : lenDest + 4 < maxDest := by simpa using room
      rw [encode_one outside c1 enough, encode_one other c1 enough]
  | two c1 c2 =>
      have enough : lenDest + 4 < maxDest := by simpa using room
      rw [encode_two outside c1 c2 enough, encode_two other c1 c2 enough]
  | group c1 c2 c3 rest induction =>
      have low : c1.toNat < 128 := harmless.1.1
      simp only [List.length_cons] at room
      rw [encode_three outside c1 c2 c3 rest (by omega),
        encode_three other c1 c2 c3 rest (by omega), tableAt_first, tableAt_first, if_pos low,
        if_pos low, induction harmless.2 (by omega)]

theorem encodedLength_eq {maxDest : Nat} (source : Bytes) {lenDest : Nat}
    (room : lenDest + 4 * ((source.length + 2) / 3) < maxDest) :
    encodedLength maxDest lenDest source = lenDest + 4 * ((source.length + 2) / 3) := by
  induction source using groups_induction generalizing lenDest with
  | nil => rfl
  | one c1 =>
      have enough : lenDest + 4 < maxDest := by simpa using room
      rw [encodedLength, if_neg (by omega)]
      simp
  | two c1 c2 =>
      have enough : lenDest + 4 < maxDest := by simpa using room
      rw [encodedLength, if_neg (by omega)]
      simp
  | group c1 c2 c3 rest induction =>
      simp only [List.length_cons] at room ⊢
      rw [encodedLength, if_neg (by omega), induction (by omega)]
      omega

theorem Decoded.behind_eq_iff {front rest : Bytes} (front' : Bytes) {decoded : Decoded}
    {lenDest : Nat} (same : front.length = front'.length) :
    decoded.behind front = ⟨lenDest, front' ++ rest⟩ ↔
      front = front' ∧ decoded = ⟨lenDest, rest⟩ := by
  rw [Decoded.behind, Decoded.mk.injEq]
  constructor
  · intro equal
    rcases List.append_inj equal.2 same with ⟨fronts, rests⟩
    exact ⟨fronts, congrArg₂ Decoded.mk equal.1 rests⟩
  · intro equal
    rcases equal with ⟨rfl, rfl⟩
    exact ⟨rfl, rfl⟩

/-- The three bytes that a full group is decoded to are its own exactly where no sign gets
in the way. -/
theorem group_iff (c1 c2 c3 : Byte) :
    [UInt8.ofNat (firstValue c1 * 4 + secondValue c1 c2 / 16),
      UInt8.ofNat (secondValue c1 c2 % 16 * 16 + thirdValue c2 c3 / 4),
      UInt8.ofNat (thirdValue c2 c3 % 4 * 64 + c3.toNat % 64)] = [c1, c2, c3] ↔
    c1.toNat < 128 ∧ (c2.toNat < 128 ∨ c1.toNat % 4 = 3) ∧
      (c3.toNat < 128 ∨ c2.toNat % 16 = 15) := by
  have bound1 := c1.toNat_lt
  have bound2 := c2.toNat_lt
  have bound3 := c3.toNat_lt
  have first : UInt8.ofNat (firstValue c1 * 4 + secondValue c1 c2 / 16) = c1 ↔
      c1.toNat < 128 ∧ (c2.toNat < 128 ∨ c1.toNat % 4 = 3) := by
    rw [← UInt8.toNat_inj, UInt8.toNat_ofNat', firstValue, secondValue]
    split <;> split <;> omega
  have second : UInt8.ofNat (secondValue c1 c2 % 16 * 16 + thirdValue c2 c3 / 4) = c2 ↔
      c3.toNat < 128 ∨ c2.toNat % 16 = 15 := by
    have own : secondValue c1 c2 % 16 = c2.toNat / 16 := by
      rw [secondValue]
      split <;> omega
    rw [own, ← UInt8.toNat_inj, UInt8.toNat_ofNat', thirdValue]
    split <;> omega
  have third : UInt8.ofNat (thirdValue c2 c3 % 4 * 64 + c3.toNat % 64) = c3 := by
    have own : thirdValue c2 c3 % 4 = c3.toNat / 64 := by
      rw [thirdValue]
      split <;> omega
    rw [own, ← UInt8.toNat_inj, UInt8.toNat_ofNat']
    omega
  simp only [List.cons.injEq, and_true, first, second, third, and_assoc]

section Tail

variable (around : Int → Byte) {memory : Nat → Byte} {outside : Int → Byte}
  {maxDest maxDest2 lenDest lenDest2 position : Nat}

theorem decodeLoop_encode_one (c1 : Byte) (room : lenDest + 4 < maxDest)
    (room2 : lenDest2 + 1 < maxDest2)
    (spelled : Spells memory position (encode outside maxDest lenDest [c1])) :
    decodeLoop around memory 61 maxDest2 1 position lenDest2 = ⟨lenDest2 + 1, [c1]⟩ := by
  have bound1 := c1.toNat_lt
  have small0 : c1.toNat / 4 < 64 := by omega
  have small1 : c1.toNat % 4 * 16 < 64 := by omega
  have byte : UInt8.ofNat (c1.toNat / 4 * 4 + c1.toNat % 4 * 16 / 16) = c1 := by
    rw [← UInt8.toNat_inj, UInt8.toNat_ofNat']
    omega
  rw [encode_one _ c1 room] at spelled
  have decoded := decodeLoop_one small0 small1 around 0 spelled room2
  rw [byte] at decoded
  exact decoded

theorem decodeLoop_encode_two (c1 c2 : Byte) (room : lenDest + 4 < maxDest)
    (room2 : lenDest2 + 2 < maxDest2)
    (spelled : Spells memory position (encode outside maxDest lenDest [c1, c2])) :
    decodeLoop around memory 61 maxDest2 1 position lenDest2 = ⟨lenDest2 + 2, [c1, c2]⟩ := by
  have bound1 := c1.toNat_lt
  have bound2 := c2.toNat_lt
  have small0 : c1.toNat / 4 < 64 := by omega
  have small1 : c1.toNat % 4 * 16 + c2.toNat / 16 < 64 := by omega
  have small2 : c2.toNat % 16 * 4 < 64 := by omega
  have byte1 : UInt8.ofNat (c1.toNat / 4 * 4 +
      (c1.toNat % 4 * 16 + c2.toNat / 16) / 16) = c1 := by
    rw [← UInt8.toNat_inj, UInt8.toNat_ofNat']
    omega
  have byte2 : UInt8.ofNat ((c1.toNat % 4 * 16 + c2.toNat / 16) % 16 * 16 +
      c2.toNat % 16 * 4 / 4) = c2 := by
    rw [← UInt8.toNat_inj, UInt8.toNat_ofNat']
    omega
  rw [encode_two _ c1 c2 room] at spelled
  have decoded := decodeLoop_two small0 small1 small2 around 0 spelled room2
  rw [byte1, byte2] at decoded
  exact decoded

end Tail

/-- The encoded text is decoded to its source exactly where no sign gets in the way, if the
bytes around the table are `A`. -/
theorem decodeLoop_encode_iff (around : Int → Byte) (memory : Nat → Byte)
    {maxDest maxDest2 : Nat} (source : Bytes) {lenDest lenDest2 position : Nat}
    (room : lenDest + 4 * ((source.length + 2) / 3) < maxDest)
    (room2 : lenDest2 + source.length < maxDest2)
    (spelled : Spells memory position (encode (fun _ => 65) maxDest lenDest source)) :
    decodeLoop around memory 61 maxDest2 ((source.length + 2) / 3) position lenDest2 =
        ⟨lenDest2 + source.length, source⟩ ↔
      SignsHarmless source := by
  induction source using groups_induction generalizing lenDest lenDest2 position with
  | nil => exact iff_of_true rfl trivial
  | one c1 =>
      have enough : lenDest + 4 < maxDest := by simpa using room
      have turns : ([c1].length + 2) / 3 = 1 := by simp
      rw [turns]
      exact iff_of_true (decodeLoop_encode_one around c1 enough room2 spelled) trivial
  | two c1 c2 =>
      have enough : lenDest + 4 < maxDest := by simpa using room
      have turns : ([c1, c2].length + 2) / 3 = 1 := by simp
      rw [turns]
      exact iff_of_true (decodeLoop_encode_two around c1 c2 enough room2 spelled) trivial
  | group c1 c2 c3 rest induction =>
      simp only [List.length_cons] at room room2
      have turns : ((c1 :: c2 :: c3 :: rest).length + 2) / 3 = (rest.length + 2) / 3 + 1 := by
        simp only [List.length_cons]
        omega
      have total : lenDest2 + (c1 :: c2 :: c3 :: rest).length =
          lenDest2 + 3 + rest.length := by
        simp only [List.length_cons]
        omega
      have firstDigit : tableAt (fun _ => 65) ((promoted c1).sshiftRight 2) =
          digit (firstValue c1) := by
        rw [tableAt_first, firstValue]
        split <;> rfl
      rw [encode_three _ c1 c2 c3 rest (by omega), firstDigit] at spelled
      have room4 : lenDest + 4 + 4 * ((rest.length + 2) / 3) < maxDest := by omega
      have room3 : lenDest2 + 3 + rest.length < maxDest2 := by omega
      have later := induction room4 room3 spelled.2.2.2.2
      rw [turns, total, decodeLoop_three (firstValue_lt c1) (secondValue_lt c1 c2)
        (thirdValue_lt c2 c3) (Nat.mod_lt _ (by decide)) around _ spelled (by omega), SignsHarmless,
        ← group_iff, ← later]
      exact Decoded.behind_eq_iff [c1, c2, c3] rfl

theorem exists_spells (text : Bytes) : ∃ memory, Spells memory 0 text := by
  have whole : ∀ (front rest : Bytes),
      Spells (fun position => (front ++ rest).getD position 0) front.length rest := by
    intro front rest
    induction rest generalizing front with
    | nil => trivial
    | cons char rest induction =>
        constructor
        · simp
        · have next := induction (front ++ [char])
          rw [List.append_assoc, List.length_append] at next
          exact next
  exact ⟨_, whole [] text⟩

/-- With room for the text and for what is decoded from it, a byte string makes the way
there and back exactly when no sign gets in the way of a full group. -/
theorem roundTrips_iff_signsHarmless (source : Bytes) (maxDest maxDest2 : Nat)
    (room : 4 * ((source.length + 2) / 3) < maxDest) (room2 : source.length < maxDest2) :
    RoundTrips source maxDest maxDest2 ↔ SignsHarmless source := by
  have roomBehind : 0 + 4 * ((source.length + 2) / 3) < maxDest := by omega
  have room2Behind : 0 + source.length < maxDest2 := by omega
  have counted := encodedLength_eq source roomBehind
  have turns : (encodedLength maxDest 0 source + 3) / 4 = (source.length + 2) / 3 := by
    omega
  have total : 0 + source.length = source.length := Nat.zero_add _
  constructor
  · intro trips
    rcases exists_spells (encode (fun _ => 65) maxDest 0 source) with ⟨memory, spelled⟩
    have back := trips (fun _ => 65) (fun _ => 0) memory spelled
    rw [decode, turns] at back
    have iff := decodeLoop_encode_iff (fun _ => 0) memory source roomBehind room2Behind spelled
    rw [total] at iff
    exact iff.mp back
  · intro harmless outside around memory spelled
    rw [encode_of_signsHarmless outside (fun _ => 65) harmless roomBehind] at spelled
    have back := (decodeLoop_encode_iff around memory source roomBehind room2Behind
      spelled).mpr harmless
    rw [total] at back
    rw [decode, turns]
    exact back

/-- Bytes above `0x80` make the way in a tail. -/
theorem roundTrips_tail : RoundTrips [0x41, 0x42, 0x43, 0xE9, 0xFF] 9 6 :=
  (roundTrips_iff_signsHarmless [0x41, 0x42, 0x43, 0xE9, 0xFF] 9 6 (by decide)
    (by decide)).mpr (by decide)

/-- The three bytes of a euro sign do not come back, and neither does an `e` with an acute
accent behind a letter. -/
theorem accents_do_not_roundTrip :
    ¬ RoundTrips [0xE2, 0x82, 0xAC] 5 4 ∧ ¬ RoundTrips [0x61, 0xC3, 0xA9] 5 4 := by
  constructor
  · intro trips
    have back := trips (fun _ => 65) (fun _ => 0)
      (fun position => [0x41, 0x34, 0x2B, 0x73].getD position 0) (by decide)
    exact absurd back (by decide)
  · intro trips
    have back := trips (fun _ => 65) (fun _ => 0)
      (fun position => [0x59, 0x38, 0x2B, 0x70].getD position 0) (by decide)
    exact absurd back (by decide)

end MyBookSources.SendMail.Base64Util
