import MyBookSources.Foundation.Bytes

/-! # The base64 encoding

Three bytes make four characters of six bits each. One or two bytes at the end make a group
of their own, which is filled up with equals signs. A text may have line ends between the
groups.
-/

namespace MyBookSources.Base64

/-! ## The standard encoding -/

def alphabet : Bytes :=
  ascii "ABCDEFGHIJKLMNOPQRSTUVWXYZabcdefghijklmnopqrstuvwxyz0123456789+/"

def digit (value : Nat) : Byte := alphabet.getD value 0

def code (value : Nat) : Nat :=
  if value < 26 then value + 65 else if value < 52 then value + 71
  else if value < 62 then value - 4 else if value = 62 then 43 else 47

theorem toNat_digit {value : Nat} (small : value < 64) : (digit value).toNat = code value := by
  have all : ∀ value : Fin 64, (alphabet.getD value 0).toNat = code value := by
    rw [alphabet, ascii_ofList]
    decide +kernel
  exact all ⟨value, small⟩

theorem digit_inj {left right : Nat} (leftSmall : left < 64) (rightSmall : right < 64) :
    digit left = digit right ↔ left = right := by
  constructor
  · intro same
    have codes := congrArg UInt8.toNat same
    rw [toNat_digit leftSmall, toNat_digit rightSmall, code, code] at codes
    split_ifs at codes <;> omega
  · exact congrArg digit

theorem digit_range {value : Nat} (small : value < 64) :
    43 ≤ (digit value).toNat ∧ (digit value).toNat < 123 ∧ (digit value).toNat ≠ 61 := by
  rw [toNat_digit small, code]
  split_ifs <;> omega

theorem digit_ne {value : Nat} (small : value < 64) {char : Byte}
    (other : char.toNat < 43 ∨ char = 61) : digit value ≠ char := by
  have range := digit_range small
  rintro rfl
  rcases other with below | pad
  · omega
  · exact range.2.2 (by rw [pad]; rfl)

def groups : Bytes → List Bytes
  | c1 :: c2 :: c3 :: rest =>
      [digit (c1.toNat / 4), digit (c1.toNat % 4 * 16 + c2.toNat / 16),
        digit (c2.toNat % 16 * 4 + c3.toNat / 64), digit (c3.toNat % 64)] :: groups rest
  | [c1, c2] =>
      [[digit (c1.toNat / 4), digit (c1.toNat % 4 * 16 + c2.toNat / 16),
        digit (c2.toNat % 16 * 4), 61]]
  | [c1] => [[digit (c1.toNat / 4), digit (c1.toNat % 4 * 16), 61, 61]]
  | [] => []

def encode (source : Bytes) : Bytes := (groups source).flatten

example : encode (ascii "hi") = ascii "aGk=" := by decide

theorem groups_eq_nil_iff (source : Bytes) : groups source = [] ↔ source = [] := by
  match source with
  | [] => simp [groups]
  | [c1] => simp [groups]
  | [c1, c2] => simp [groups]
  | c1 :: c2 :: c3 :: rest => simp [groups]

/-- The groups with any number of line ends between them, in front of them and behind them. -/
inductive Wrapped : List Bytes → Bytes → Prop
  | nil : Wrapped [] []
  | lineEnd {groups text} : Wrapped groups text → Wrapped groups (13 :: 10 :: text)
  | group {groups text} (group : Bytes) : Wrapped groups text →
      Wrapped (group :: groups) (group ++ text)

theorem wrapped_flatten (groups : List Bytes) : Wrapped groups groups.flatten := by
  induction groups with
  | nil => exact .nil
  | cons group groups induction => exact .group group induction

theorem Wrapped.getLast?_of_nil {text : Bytes} (wrapped : Wrapped [] text) :
    text = [] ∨ text.getLast? = some 10 := by
  generalize same : ([] : List Bytes) = groups at wrapped
  induction wrapped with
  | nil => exact .inl rfl
  | lineEnd wrapped induction =>
      right
      rcases induction same with rfl | last
      · rfl
      · rw [List.getLast?_cons, List.getLast?_cons, last]
        rfl
  | group group wrapped induction => cases same

/-! ## Bytes from their parts -/

section

variable (c1 c2 c3 : Byte)

theorem join_first {low : Nat} (small : low < 16) :
    UInt8.ofNat (c1.toNat / 4 * 4 + (c1.toNat % 4 * 16 + low) / 16) = c1 := by
  have bound := c1.toNat_lt
  rw [← UInt8.toNat_inj, UInt8.toNat_ofNat']
  omega

theorem join_second {low : Nat} (small : low < 4) :
    UInt8.ofNat ((c1.toNat % 4 * 16 + c2.toNat / 16) % 16 * 16 + (c2.toNat % 16 * 4 + low) / 4) =
      c2 := by
  have bound := c2.toNat_lt
  rw [← UInt8.toNat_inj, UInt8.toNat_ofNat']
  omega

theorem join_third :
    UInt8.ofNat ((c2.toNat % 16 * 4 + c3.toNat / 64) % 4 * 64 + c3.toNat % 64) = c3 := by
  have bound := c3.toNat_lt
  rw [← UInt8.toNat_inj, UInt8.toNat_ofNat']
  omega

end

/-! ## Four digits in a word -/

theorem toNat_placed {value shift : Nat} (small : value < 64) (inside : shift ≤ 18) :
    (BitVec.ofNat 32 value <<< shift).toNat = value * 2 ^ shift := by
  have power : 2 ^ shift ≤ 2 ^ 18 := Nat.pow_le_pow_right (by decide) inside
  have product : value * 2 ^ shift ≤ 63 * 2 ^ 18 := Nat.mul_le_mul (by omega) power
  have unchanged : value % 2 ^ 32 = value := Nat.mod_eq_of_lt (by omega)
  rw [BitVec.toNat_shiftLeft, BitVec.toNat_ofNat, unchanged, Nat.shiftLeft_eq,
    Nat.mod_eq_of_lt (by omega)]

section

variable {v0 v1 v2 v3 : Nat} (small0 : v0 < 64) (small1 : v1 < 64) (small2 : v2 < 64)
  (small3 : v3 < 64)

include small0 small1 in
theorem toNat_two : ((BitVec.ofNat 32 v0 <<< 18) + (BitVec.ofNat 32 v1 <<< 12)).toNat =
    v0 * 2 ^ 18 + v1 * 2 ^ 12 := by
  rw [BitVec.toNat_add, toNat_placed small0 (by decide), toNat_placed small1 (by decide)]
  exact Nat.mod_eq_of_lt (by omega)

include small0 small1 small2 in
theorem toNat_three : ((BitVec.ofNat 32 v0 <<< 18) + (BitVec.ofNat 32 v1 <<< 12) +
    (BitVec.ofNat 32 v2 <<< 6)).toNat = v0 * 2 ^ 18 + v1 * 2 ^ 12 + v2 * 2 ^ 6 := by
  rw [BitVec.toNat_add, toNat_two small0 small1, toNat_placed small2 (by decide)]
  exact Nat.mod_eq_of_lt (by omega)

include small0 small1 small2 small3 in
theorem toNat_four : ((BitVec.ofNat 32 v0 <<< 18) + (BitVec.ofNat 32 v1 <<< 12) +
    (BitVec.ofNat 32 v2 <<< 6) + BitVec.ofNat 32 v3).toNat =
    v0 * 2 ^ 18 + v1 * 2 ^ 12 + v2 * 2 ^ 6 + v3 := by
  rw [BitVec.toNat_add, toNat_three small0 small1 small2, BitVec.toNat_ofNat]
  omega

end

end MyBookSources.Base64
