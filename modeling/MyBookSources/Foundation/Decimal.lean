import MyBookSources.Foundation.Bytes
import Mathlib.Data.List.TakeWhile
import Mathlib.Algebra.Order.Ring.Int

/-! # Decimal numbers in memory

A number is printed without a mark of its end. `atoll` reads the number at the front of a
memory block and goes on as long as it finds digits, so what it gives back for a printed
number depends on what stands behind it.
-/

namespace MyBookSources.Decimal

/-! ## Printing -/

def digits (number : Nat) : Bytes :=
  (Nat.toDigits 10 number).map fun char => UInt8.ofNat char.toNat

/-- A number as `%ld` prints it. -/
def text (number : Int) : Bytes :=
  if 0 ≤ number then digits number.toNat else 45 :: digits (-number).toNat

/-! ## Reading -/

def isDigit (byte : Byte) : Bool := 48 ≤ byte.toNat && byte.toNat ≤ 57

/-- White space in the sense of `isspace`. -/
def isSpace (byte : Byte) : Bool :=
  byte.toNat == 32 || (9 ≤ byte.toNat && byte.toNat ≤ 13)

def value (digits : Bytes) : Nat :=
  digits.foldl (fun number digit => number * 10 + (digit.toNat - 48)) 0

/-- A number outside the range of a `long long` is read as the end of the range. -/
def clamp (number : Int) : Int := max (-2 ^ 63) (min (2 ^ 63 - 1) number)

/-- `atoll` on a memory block: white space, a sign, and the digits up to the first byte
that is none. It is none where the block ends before such a byte. -/
def atoll (memory : Bytes) : Option Int :=
  let number := memory.dropWhile isSpace
  let unsigned :=
    if number.head? = some 45 ∨ number.head? = some 43 then number.tail else number
  let spelled := unsigned.takeWhile isDigit
  if spelled.length = unsigned.length then none
  else some (clamp (if number.head? = some 45 then -(value spelled : Int) else value spelled))

/-! ## Digits -/

theorem digits_ne_nil (number : Nat) : digits number ≠ [] := by
  simp [digits]

theorem length_digits_le_iff {number count : Nat} (positive : 0 < count) :
    (digits number).length ≤ count ↔ number < 10 ^ count := by
  rw [digits, List.length_map]
  exact Nat.length_toDigits_le_iff (by decide) positive

theorem toNat_digit {char : Char} (digit : char.isDigit = true) :
    (UInt8.ofNat char.toNat).toNat = char.toNat ∧ 48 ≤ char.toNat ∧ char.toNat ≤ 57 := by
  have bounds : 48 ≤ char.toNat ∧ char.toNat ≤ 57 := by
    simp only [Char.isDigit, Bool.and_eq_true, decide_eq_true_eq] at digit
    exact digit
  rw [UInt8.toNat_ofNat']
  omega

theorem isDigit_of_mem_digits {number : Nat} {byte : Byte} (member : byte ∈ digits number) :
    isDigit byte = true := by
  rw [digits, List.mem_map] at member
  rcases member with ⟨char, inDigits, rfl⟩
  have bounds := toNat_digit (Nat.isDigit_of_mem_toDigits (by decide) (by decide) inDigits)
  simp only [isDigit, bounds.1, Bool.and_eq_true, decide_eq_true_eq]
  exact bounds.2

theorem foldl_digit (front : Nat) (digits : Bytes) :
    digits.foldl (fun number digit => number * 10 + (digit.toNat - 48)) front =
      front * 10 ^ digits.length + value digits := by
  induction digits generalizing front with
  | nil => simp [value]
  | cons digit digits induction =>
      simp only [value, List.foldl_cons, List.length_cons]
      rw [induction, induction (0 * 10 + (digit.toNat - 48))]
      ring

theorem value_append (front back : Bytes) :
    value (front ++ back) = value front * 10 ^ back.length + value back := by
  rw [value, List.foldl_append, foldl_digit]
  rfl

theorem value_digits (number : Nat) : value (digits number) = number := by
  have spelled : ∀ (chars : List Char) (front : Nat),
      (∀ char ∈ chars, char.isDigit = true) →
      (chars.map fun char => UInt8.ofNat char.toNat).foldl
          (fun number digit => number * 10 + (digit.toNat - 48)) front =
        Nat.ofDigitChars 10 chars front := by
    intro chars
    induction chars with
    | nil => simp
    | cons char chars induction =>
        intro front all
        have byte := (toNat_digit (all char (by simp))).1
        rw [List.map_cons, List.foldl_cons, Nat.ofDigitChars_cons, byte,
          induction _ (fun other member => all other (by simp [member])), Nat.mul_comm]
        rfl
  rw [value, digits, spelled _ _ fun char member =>
    Nat.isDigit_of_mem_toDigits (by decide) (by decide) member]
  exact Nat.ofDigitChars_ten_toDigits

theorem value_eq_zero_iff {spelled : Bytes} (all : ∀ byte ∈ spelled, isDigit byte = true) :
    value spelled = 0 ↔ ∀ byte ∈ spelled, byte = 48 := by
  induction spelled with
  | nil => simp [value]
  | cons digit spelled induction =>
      have front : value (digit :: spelled) =
          (digit.toNat - 48) * 10 ^ spelled.length + value spelled := by
        simp only [value, List.foldl_cons]
        rw [foldl_digit]
        simp [value]
      have bounds : 48 ≤ digit.toNat ∧ digit.toNat ≤ 57 := by
        simpa [isDigit] using all digit (by simp)
      have zero : (digit.toNat - 48) * 10 ^ spelled.length = 0 ↔ digit = 48 := by
        rw [Nat.mul_eq_zero, or_iff_left (pow_ne_zero _ (by decide)), ← UInt8.toNat_inj]
        change digit.toNat - 48 = 0 ↔ digit.toNat = 48
        omega
      rw [front, Nat.add_eq_zero_iff, zero,
        induction fun byte member => all byte (by simp [member])]
      simp

/-! ## Reading what was printed -/

theorem clamp_of_mem {number : Int} (low : -2 ^ 63 ≤ number) (high : number < 2 ^ 63) :
    clamp number = number := by
  unfold clamp
  omega

theorem isDigit_not_sign {byte : Byte} (digit : isDigit byte = true) :
    isSpace byte = false ∧ byte ≠ 45 ∧ byte ≠ 43 := by
  have bounds : 48 ≤ byte.toNat ∧ byte.toNat ≤ 57 := by
    simpa [isDigit] using digit
  constructor
  · simp only [isSpace, Bool.or_eq_false_iff, Bool.and_eq_false_iff, beq_eq_false_iff_ne,
      decide_eq_false_iff_not]
    omega
  · constructor <;> rintro rfl <;> revert bounds <;> decide

theorem atoll_text_append (number : Int) (rest : Bytes) :
    atoll (text number ++ rest) =
      if (rest.takeWhile isDigit).length = rest.length then none
      else some (clamp (if 0 ≤ number then
          number * 10 ^ (rest.takeWhile isDigit).length + value (rest.takeWhile isDigit)
        else number * 10 ^ (rest.takeWhile isDigit).length -
          value (rest.takeWhile isDigit))) := by
  have taken : ∀ magnitude, (digits magnitude ++ rest).takeWhile isDigit =
      digits magnitude ++ rest.takeWhile isDigit := by
    intro magnitude
    exact List.takeWhile_append_of_pos fun byte member => isDigit_of_mem_digits member
  by_cases positive : 0 ≤ number
  · rcases List.exists_cons_of_ne_nil (digits_ne_nil number.toNat) with ⟨first, others, spelled⟩
    have member : first ∈ digits number.toNat := by simp [spelled]
    have leading := isDigit_not_sign (isDigit_of_mem_digits member)
    have unspaced : (digits number.toNat ++ rest).dropWhile isSpace =
        digits number.toNat ++ rest := by
      rw [spelled, List.cons_append, List.dropWhile_cons, leading.1]
      rfl
    have head : (digits number.toNat ++ rest).head? = some first := by
      rw [spelled]
      rfl
    have magnitude : ((number.toNat : Nat) : Int) = number := Int.toNat_of_nonneg positive
    simp only [atoll, text, positive, if_true, unspaced, head, Option.some.injEq, leading.2.1,
      leading.2.2, or_self, if_false, taken, List.length_append, Nat.add_left_cancel_iff,
      value_append, value_digits]
    rw [Int.natCast_add, Int.natCast_mul, magnitude, Int.natCast_pow]
    rfl
  · have unspaced : (45 :: digits (-number).toNat ++ rest).dropWhile isSpace =
        45 :: (digits (-number).toNat ++ rest) := rfl
    have magnitude : (((-number).toNat : Nat) : Int) = -number :=
      Int.toNat_of_nonneg (by omega)
    simp only [atoll, text, positive, if_false, unspaced, List.head?_cons, true_or, if_true,
      List.tail_cons, taken, List.length_append, Nat.add_left_cancel_iff, value_append,
      value_digits]
    rw [Int.natCast_add, Int.natCast_mul, magnitude, Int.natCast_pow]
    have sign : -(-number * (10 : Nat) ^ (rest.takeWhile isDigit).length +
        (value (rest.takeWhile isDigit) : Int)) =
        number * 10 ^ (rest.takeWhile isDigit).length -
          (value (rest.takeWhile isDigit) : Int) := by
      push_cast
      ring
    rw [sign]

theorem clamp_shifted_iff {number power more : Int} (low : -2 ^ 63 ≤ number)
    (high : number < 2 ^ 63) (shifts : 10 ≤ power) (positive : 0 ≤ more) :
    clamp (if 0 ≤ number then number * power + more else number * power - more) = number ↔
      (number = 0 ∧ more = 0) ∨ number = 2 ^ 63 - 1 ∨ number = -2 ^ 63 := by
  rcases lt_trichotomy number 0 with negative | zero | positive
  · have grows : number * power ≤ number * 10 :=
      Int.mul_le_mul_of_nonpos_left (by omega) shifts
    rw [if_neg (by omega)]
    unfold clamp
    omega
  · subst zero
    rw [if_pos (by decide), Int.zero_mul]
    unfold clamp
    omega
  · have grows : number * 10 ≤ number * power :=
      Int.mul_le_mul_of_nonneg_left shifts (by omega)
    rw [if_pos (by omega)]
    unfold clamp
    omega

theorem length_text_le {number : Int} (low : -2 ^ 63 ≤ number) (high : number < 2 ^ 63) :
    (text number).length ≤ 20 := by
  unfold text
  split
  · have few : (digits number.toNat).length ≤ 19 :=
      (length_digits_le_iff (by decide)).mpr (by omega)
    omega
  · have few : (digits (-number).toNat).length ≤ 19 :=
      (length_digits_le_iff (by decide)).mpr (by omega)
    rw [List.length_cons]
    omega

/-- What may stand behind a printed number for it to be read back: the block goes on with a
byte that is no digit, maybe behind digits that do not change the number. -/
structure Harmless (number : Int) (rest : Bytes) : Prop where
  ends : ∃ byte ∈ rest, isDigit byte = false
  keeps : rest.takeWhile isDigit = [] ∨
    (number = 0 ∧ ∀ byte ∈ rest.takeWhile isDigit, byte = 48) ∨
    number = 2 ^ 63 - 1 ∨ number = -2 ^ 63

theorem takeWhile_length_eq_iff (rest : Bytes) :
    (rest.takeWhile isDigit).length = rest.length ↔ ¬ ∃ byte ∈ rest, isDigit byte = false := by
  have whole : (rest.takeWhile isDigit).length = rest.length ↔
      rest.takeWhile isDigit = rest := by
    constructor
    · intro same
      exact (List.takeWhile_prefix isDigit).eq_of_length same
    · intro same
      rw [same]
  rw [whole, List.takeWhile_eq_self_iff]
  simp

theorem atoll_text_append_iff {number : Int} (low : -2 ^ 63 ≤ number) (high : number < 2 ^ 63)
    (rest : Bytes) :
    atoll (text number ++ rest) = some number ↔ Harmless number rest := by
  rw [atoll_text_append]
  by_cases endless : (rest.takeWhile isDigit).length = rest.length
  · rw [if_pos endless]
    apply iff_of_false nofun
    intro harmless
    exact (takeWhile_length_eq_iff rest).mp endless harmless.ends
  · have ended : ∃ byte ∈ rest, isDigit byte = false := by
      by_contra none
      exact endless ((takeWhile_length_eq_iff rest).mpr none)
    have harmless : Harmless number rest ↔ rest.takeWhile isDigit = [] ∨
        (number = 0 ∧ ∀ byte ∈ rest.takeWhile isDigit, byte = 48) ∨
        number = 2 ^ 63 - 1 ∨ number = -2 ^ 63 := ⟨Harmless.keeps, Harmless.mk ended⟩
    have zeros : value (rest.takeWhile isDigit) = 0 ↔ _ :=
      value_eq_zero_iff fun byte member => List.mem_takeWhile_imp member
    rw [if_neg endless, Option.some.injEq, harmless]
    cases spelled : rest.takeWhile isDigit with
    | nil => simp [value, clamp_of_mem low high]
    | cons digit others =>
        have shifts : (10 : Int) ≤ 10 ^ (digit :: others).length := by
          rw [List.length_cons]
          exact le_self_pow₀ (by decide) (by omega)
        rw [spelled] at zeros
        rw [clamp_shifted_iff low high shifts (Int.natCast_nonneg _), Int.natCast_eq_zero, zeros]
        simp

end MyBookSources.Decimal
