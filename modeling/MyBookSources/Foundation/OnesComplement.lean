import Mathlib.Algebra.GroupWithZero.Nat
import Mathlib.Data.Nat.ModEq
import Mathlib.Tactic.Ring

/-! # Ones' complement sums

Words of a fixed width are added with the carry brought around to the low end. Such a sum
is the remainder of the plain sum at division by the word of all ones, except that it is
zero only where all words are.
-/

namespace MyBookSources.OnesComplement

variable {width : Nat}

def add (width left right : Nat) : Nat :=
  if left + right < 2 ^ width then left + right else left + right - (2 ^ width - 1)

def sum (width : Nat) (words : List Nat) : Nat := words.foldl (add width) 0

/-- The word that a number becomes when all its carries are brought around. -/
def reduce (width number : Nat) : Nat :=
  if number = 0 then 0 else (number - 1) % (2 ^ width - 1) + 1

theorem reduce_of_lt {number : Nat} (small : number < 2 ^ width) :
    reduce width number = number := by
  unfold reduce
  split
  · next zero => exact zero.symm
  · next positive =>
    rw [Nat.mod_eq_of_lt (by omega)]
    omega

theorem reduce_add_mul {number : Nat} (positive : 0 < number) (carries : Nat) :
    reduce width (number + carries * (2 ^ width - 1)) = reduce width number := by
  unfold reduce
  have shifted : number + carries * (2 ^ width - 1) - 1 =
      number - 1 + carries * (2 ^ width - 1) := by
    omega
  rw [if_neg (by omega), if_neg (by omega), shifted, Nat.add_mul_mod_self_right]

theorem reduce_eq_iff {left right : Nat} (leftPositive : 0 < left) (rightPositive : 0 < right) :
    reduce width left = reduce width right ↔ left ≡ right [MOD 2 ^ width - 1] := by
  have shiftedLeft : left = left - 1 + 1 := by omega
  have shiftedRight : right = right - 1 + 1 := by omega
  unfold reduce
  rw [if_neg (by omega), if_neg (by omega), Nat.add_right_cancel_iff]
  constructor
  · intro same
    rw [shiftedLeft, shiftedRight]
    exact Nat.ModEq.add_right 1 same
  · intro same
    rw [shiftedLeft, shiftedRight] at same
    exact Nat.ModEq.add_right_cancel' 1 same

theorem add_eq_reduce {left right : Nat} (leftWord : left < 2 ^ width)
    (rightWord : right < 2 ^ width) : add width left right = reduce width (left + right) := by
  unfold add
  split
  · next small => rw [reduce_of_lt small]
  · next carries =>
    have split : left + right =
        left + right - (2 ^ width - 1) + 1 * (2 ^ width - 1) := by
      omega
    rw [split, reduce_add_mul (by omega), reduce_of_lt (by omega)]
    omega

theorem reduce_lt {number : Nat} (positive : 0 < width) : reduce width number < 2 ^ width := by
  have wide : 2 ≤ 2 ^ width := Nat.le_self_pow (by omega) 2
  unfold reduce
  split
  · omega
  · have remainder : (number - 1) % (2 ^ width - 1) < 2 ^ width - 1 :=
      Nat.mod_lt _ (by omega)
    omega

theorem reduce_modEq (number : Nat) : reduce width number ≡ number [MOD 2 ^ width - 1] := by
  unfold reduce
  split
  · next zero => rw [zero]
  · have back : number = number - 1 + 1 := by omega
    nth_rewrite 2 [back]
    exact Nat.ModEq.add_right 1 (Nat.mod_modEq _ _)

theorem reduce_pos {number : Nat} (positive : 0 < number) : 0 < reduce width number := by
  unfold reduce
  rw [if_neg (by omega)]
  omega

theorem reduce_reduce_add (front more : Nat) :
    reduce width (reduce width front + more) = reduce width (front + more) := by
  by_cases zero : front = 0
  · rw [zero]
    rfl
  · have positive : 0 < reduce width front := reduce_pos (Nat.pos_of_ne_zero zero)
    rw [reduce_eq_iff (by omega) (by omega)]
    exact Nat.ModEq.add_right more (reduce_modEq front)

/-- A ones' complement sum is the plain sum, reduced once at the end. -/
theorem sum_eq_reduce (positive : 0 < width) {words : List Nat}
    (small : ∀ word ∈ words, word < 2 ^ width) : sum width words = reduce width words.sum := by
  have folded : ∀ front, words.foldl (add width) (reduce width front) =
      reduce width (front + words.sum) := by
    induction words with
    | nil =>
        intro front
        rfl
    | cons word words induction =>
        intro front
        have others := induction fun other member => small other (by simp [member])
        rw [List.foldl_cons, List.sum_cons,
          add_eq_reduce (reduce_lt positive) (small word (by simp)), reduce_reduce_add, others,
          Nat.add_assoc]
  have whole := folded 0
  rw [Nat.zero_add] at whole
  exact whole

theorem reduce_fold (number : Nat) :
    reduce width (number / 2 ^ width + number % 2 ^ width) = reduce width number := by
  have parts := Nat.div_add_mod' number (2 ^ width)
  have unit : 2 ^ width = 2 ^ width - 1 + 1 := by
    have positive := Nat.two_pow_pos width
    omega
  have around : number = number / 2 ^ width + number % 2 ^ width +
      number / 2 ^ width * (2 ^ width - 1) := by
    have product : number / 2 ^ width * 2 ^ width =
        number / 2 ^ width * (2 ^ width - 1) + number / 2 ^ width := by
      nth_rewrite 2 [unit]
      rw [Nat.mul_succ]
    omega
  by_cases zero : number = 0
  · simp [zero]
  · have positive : 0 < number / 2 ^ width + number % 2 ^ width := by
      by_contra none
      rcases Nat.add_eq_zero_iff.mp (Nat.eq_zero_of_not_pos none) with ⟨high, low⟩
      rw [high, low, Nat.zero_mul] at around
      exact zero around
    nth_rewrite 3 [around]
    rw [reduce_add_mul positive]

/-- In an accumulator of two words a sum that loses carries, but fewer than a word has
values, does not reduce to its word. -/
theorem reduce_mod_eq_iff {number : Nat} (few : number / 2 ^ (2 * width) < 2 ^ width - 1) :
    reduce width (number % 2 ^ (2 * width)) = reduce width number ↔
      number < 2 ^ (2 * width) := by
  constructor
  · intro same
    by_contra large
    have lost : 0 < number / 2 ^ (2 * width) :=
      Nat.div_pos (by omega) (Nat.two_pow_pos _)
    have positive : 0 < number := by
      have power := Nat.two_pow_pos (2 * width)
      omega
    by_cases zero : number % 2 ^ (2 * width) = 0
    · rw [zero] at same
      have word : 0 < reduce width number := reduce_pos positive
      rw [← same] at word
      exact absurd word (by simp [reduce])
    · rw [reduce_eq_iff (by omega) positive] at same
      have unit : 2 ^ (2 * width) ≡ 1 [MOD 2 ^ width - 1] := by
        have one : 2 ^ width ≡ 1 [MOD 2 ^ width - 1] :=
          ((Nat.modEq_iff_dvd' Nat.one_le_two_pow).mpr (dvd_refl _)).symm
        rw [Nat.two_mul, Nat.pow_add]
        exact one.mul one
      have parts := Nat.div_add_mod' number (2 ^ (2 * width))
      have carried : number ≡ number / 2 ^ (2 * width) + number % 2 ^ (2 * width)
          [MOD 2 ^ width - 1] := by
        nth_rewrite 1 [← parts]
        have product := Nat.ModEq.mul_left (number / 2 ^ (2 * width)) unit
        rw [Nat.mul_one] at product
        exact product.add_right _
      have none : 0 ≡ number / 2 ^ (2 * width) [MOD 2 ^ width - 1] := by
        have together := same.trans carried
        nth_rewrite 1 [← Nat.zero_add (number % 2 ^ (2 * width))] at together
        exact Nat.ModEq.add_right_cancel' _ together
      have equal := none.eq_of_lt_of_lt (by omega) few
      omega
  · intro small
    rw [Nat.mod_eq_of_lt small]

end MyBookSources.OnesComplement
