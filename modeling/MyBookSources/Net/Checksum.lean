import MyBookSources.Foundation.Bytes
import MyBookSources.Foundation.OnesComplement
import Mathlib.Algebra.Order.BigOperators.Group.List

/-! # The checksum of a packet

`checksum` adds the words of a buffer in 32 bits and brings the carries around once at the
end. The carries out of the 32 bits are lost, so the result is right as long as the plain
sum of the words has no such carry.
-/

namespace MyBookSources.Net

/-- The loop over the words, which the host reads low byte first, and the odd byte. -/
def sumWords (cksum : UInt32) : Bytes → UInt32
  | low :: high :: buffer => sumWords (cksum + (low.toUInt32 + high.toUInt32 * 256)) buffer
  | [last] => cksum + last.toUInt32
  | [] => cksum

theorem toNat_high (cksum : UInt32) : (cksum >>> 16).toNat = cksum.toNat / 2 ^ 16 := by
  rw [UInt32.toNat_shiftRight, Nat.shiftRight_eq_div_pow]
  rfl

theorem toNat_carried (cksum : UInt32) :
    ((cksum >>> 16) + (cksum &&& 0xffff)).toNat =
      cksum.toNat / 2 ^ 16 + cksum.toNat % 2 ^ 16 := by
  have bound := cksum.toNat_lt
  have low : (cksum &&& 0xffff).toNat = cksum.toNat % 2 ^ 16 := by
    have mask : (0xffff : UInt32).toNat = 2 ^ 16 - 1 := rfl
    rw [UInt32.toNat_and, mask, Nat.and_two_pow_sub_one_eq_mod]
  rw [UInt32.toNat_add, toNat_high, low]
  omega

def foldCarries (cksum : UInt32) : UInt32 :=
  if cksum >>> 16 = 0 then cksum else foldCarries ((cksum >>> 16) + (cksum &&& 0xffff))
termination_by cksum.toNat
decreasing_by
  next high =>
  rw [toNat_carried]
  have positive : cksum.toNat / 2 ^ 16 ≠ 0 := by
    rw [← toNat_high]
    intro zero
    exact high (UInt32.toNat_inj.mp zero)
  omega

/-- `buffer` holds as many bytes as the parameter `size` says. -/
def checksum (buffer : Bytes) : UInt16 := (~~~ foldCarries (sumWords 0 buffer)).toUInt16

/-- The little-endian words of a buffer; an odd last byte is a word of its own. -/
def words : Bytes → List Nat
  | low :: high :: buffer => (low.toNat + high.toNat * 256) :: words buffer
  | [last] => [last.toNat]
  | [] => []

def complementSum (buffer : Bytes) : Nat := 2 ^ 16 - 1 - OnesComplement.sum 16 (words buffer)

theorem word_lt_of_mem {buffer : Bytes} {word : Nat} (member : word ∈ words buffer) :
    word < 2 ^ 16 := by
  induction buffer using words.induct with
  | case1 low high buffer induction =>
      rw [words, List.mem_cons] at member
      cases member with
      | inl first =>
          have lowBound := low.toNat_lt
          have highBound := high.toNat_lt
          omega
      | inr later => exact induction later
  | case2 last =>
      have bound := last.toNat_lt
      rw [words, List.mem_singleton] at member
      omega
  | case3 => cases member

theorem length_words_le (buffer : Bytes) : 2 * (words buffer).length ≤ buffer.length + 1 := by
  induction buffer using words.induct with
  | case1 low high buffer induction =>
      simp only [words, List.length_cons]
      omega
  | case2 last => exact Nat.le_refl _
  | case3 => exact Nat.zero_le _

theorem sum_words_le (buffer : Bytes) :
    (words buffer).sum ≤ (words buffer).length * (2 ^ 16 - 1) := by
  have bounded := List.sum_le_card_nsmul (words buffer) (2 ^ 16 - 1)
    fun word member => Nat.le_sub_one_of_lt (word_lt_of_mem member)
  exact bounded

theorem toNat_sumWords (cksum : UInt32) (buffer : Bytes) :
    (sumWords cksum buffer).toNat = (cksum.toNat + (words buffer).sum) % 2 ^ 32 := by
  induction buffer using words.induct generalizing cksum with
  | case1 low high buffer induction =>
      have lowBound := low.toNat_lt
      have highBound := high.toNat_lt
      have word : (low.toUInt32 + high.toUInt32 * 256).toNat = low.toNat + high.toNat * 256 := by
        rw [UInt32.toNat_add, UInt32.toNat_mul, UInt8.toNat_toUInt32, UInt8.toNat_toUInt32]
        change (low.toNat + high.toNat * 256 % 2 ^ 32) % 2 ^ 32 = _
        omega
      rw [sumWords, induction, UInt32.toNat_add, word, words, List.sum_cons]
      omega
  | case2 last =>
      rw [sumWords, UInt32.toNat_add, UInt8.toNat_toUInt32]
      simp [words]
  | case3 =>
      have bound := cksum.toNat_lt
      rw [sumWords]
      simp only [words, List.sum_nil]
      omega

theorem toNat_foldCarries (cksum : UInt32) :
    (foldCarries cksum).toNat = OnesComplement.reduce 16 cksum.toNat := by
  induction cksum using foldCarries.induct with
  | case1 cksum done =>
      have low : cksum.toNat < 2 ^ 16 := by
        have none : cksum.toNat / 2 ^ 16 = 0 := by
          rw [← toNat_high, done]
          rfl
        omega
      rw [foldCarries, if_pos done, OnesComplement.reduce_of_lt low]
  | case2 cksum high induction =>
      rw [foldCarries, if_neg high, induction, toNat_carried, OnesComplement.reduce_fold]

theorem toNat_checksum (buffer : Bytes) :
    (checksum buffer).toNat =
      2 ^ 16 - 1 - OnesComplement.reduce 16 ((words buffer).sum % 2 ^ 32) := by
  have folded := toNat_foldCarries (sumWords 0 buffer)
  have short : OnesComplement.reduce 16 ((words buffer).sum % 2 ^ 32) < 2 ^ 16 :=
    OnesComplement.reduce_lt (by decide)
  rw [toNat_sumWords, UInt32.toNat_zero, Nat.zero_add] at folded
  rw [checksum, UInt32.toNat_toUInt16, UInt32.toNat_not, folded]
  change (2 ^ 32 - 1 - _) % 2 ^ 16 = _
  omega

/-- The checksum is right exactly when the sum of the words fits in the accumulator. -/
theorem checksum_eq_complementSum_iff (buffer : Bytes) (size : buffer.length < 2 ^ 31) :
    (checksum buffer).toNat = complementSum buffer ↔ (words buffer).sum < 2 ^ 32 := by
  have count := length_words_le buffer
  have total := sum_words_le buffer
  have few : (words buffer).sum / 2 ^ (2 * 16) < 2 ^ 16 - 1 := by
    omega
  have low : OnesComplement.reduce 16 ((words buffer).sum % 2 ^ 32) < 2 ^ 16 :=
    OnesComplement.reduce_lt (by decide)
  have whole : OnesComplement.reduce 16 (words buffer).sum < 2 ^ 16 :=
    OnesComplement.reduce_lt (by decide)
  have same := OnesComplement.reduce_mod_eq_iff few
  change OnesComplement.reduce 16 ((words buffer).sum % 2 ^ 32) = _ ↔ _ < 2 ^ 32 at same
  rw [toNat_checksum, complementSum,
    OnesComplement.sum_eq_reduce (by decide) fun word member => word_lt_of_mem member, ← same]
  omega

theorem checksum_eq_complementSum_of_odd_packet :
    (checksum [0x12, 0xF0, 0x34]).toNat = complementSum [0x12, 0xF0, 0x34] :=
  (checksum_eq_complementSum_iff [0x12, 0xF0, 0x34] (by decide)).mpr (by decide)

/-- A packet of up to `131074` bytes cannot lose a carry. -/
theorem sum_words_lt_of_short {buffer : Bytes} (short : buffer.length ≤ 131074) :
    (words buffer).sum < 2 ^ 32 := by
  have count := length_words_le buffer
  have total := sum_words_le buffer
  omega

theorem words_replicate (count : Nat) :
    words (List.replicate (2 * count) 0xFF) = List.replicate count (2 ^ 16 - 1) := by
  induction count with
  | zero => rfl
  | succ count induction =>
      rw [Nat.mul_succ, List.replicate_succ, List.replicate_succ, words, induction,
        List.replicate_succ]
      rfl

/-- Two bytes more, all of them ones, and the checksum is 1 where it should be 0. -/
theorem checksum_loses_carry :
    (List.replicate (2 * 65538) (0xFF : Byte)).length < 2 ^ 31 ∧
    (checksum (List.replicate (2 * 65538) 0xFF)).toNat = 1 ∧
    complementSum (List.replicate (2 * 65538) 0xFF) = 0 := by
  have total : (words (List.replicate (2 * 65538) 0xFF)).sum = 65538 * (2 ^ 16 - 1) := by
    rw [words_replicate, List.sum_replicate]
    rfl
  constructor
  · rw [List.length_replicate]
    decide
  · constructor
    · rw [toNat_checksum, total]
      decide
    · rw [complementSum,
        OnesComplement.sum_eq_reduce (by decide) fun word member => word_lt_of_mem member, total]
      decide

end MyBookSources.Net
