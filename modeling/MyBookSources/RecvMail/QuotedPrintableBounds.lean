import MyBookSources.RecvMail.QuotedPrintableMemory

/-! # The buffers of the quoted-printable decoder

The decoder knows neither where its text ends, once it has met an equals sign, nor how long its
destination is.
-/

namespace MyBookSources.RecvMail.EncodeUtil

open SequentialWrites

def ReadsInside (platform : Platform) (source : Bytes) : Prop :=
  ∃ effects, DecodeQuotedPrintableInto platform source = some effects ∧
    ∀ position ∈ effects.reads, position ≤ (cString source).length

def WritesInside (platform : Platform) (source : Bytes) (size : Nat) : Prop :=
  ∃ effects, DecodeQuotedPrintableInto platform source = some effects ∧
    ∀ write ∈ effects.writes, write.Inside size

def decodedCount (list : List Token) : Nat := list.countP fun token => !token.isSoftBreak

theorem length_decoded (platform : Platform) (list : List Token) :
    (decoded platform list).length = decodedCount list := by
  induction list with
  | nil => rfl
  | cons token rest induction =>
      rw [decoded_cons, List.length_append, induction, decodedCount, decodedCount,
        List.countP_cons]
      cases token <;> simp [Token.decoded, Token.isSoftBreak, Nat.add_comm]

theorem length_tokens_le (text : Bytes) : (tokens text).length ≤ text.length := by
  fun_induction tokens text with
  | case1 => exact Nat.le_refl 0
  | case2 byte rest other induction => exact Nat.succ_le_succ induction
  | case3 byte sign => exact Nat.le_refl 1
  | case4 byte sign first ended => exact Nat.le_succ 1
  | case5 byte sign first ended => exact Nat.le_succ 1
  | case6 byte sign first second rest ended both induction =>
      simp only [List.length_cons]
      omega
  | case7 byte sign first second rest ended both induction =>
      exact Nat.succ_le_succ (Nat.le_succ_of_le induction)
  | case8 byte sign first second rest ended induction =>
      simp only [List.length_cons]
      omega

theorem length_taken_le (LEN : Int) (offset : Nat) (list : List Token) :
    (taken LEN offset list).length ≤ list.length := by
  induction list generalizing offset with
  | nil => exact Nat.le_refl 0
  | cons token rest induction =>
      rw [taken]
      split
      · exact Nat.succ_le_succ (induction _)
      · exact Nat.zero_le _

theorem decodedCount_takenOf_le (text : Bytes) : decodedCount (takenOf text) ≤ text.length :=
  calc
    decodedCount (takenOf text) ≤ (takenOf text).length := List.countP_le_length
    _ ≤ (tokens text).length := length_taken_le _ _ _
    _ ≤ text.length := length_tokens_le text

theorem length_cString_le (text : Bytes) : (cString text).length ≤ text.length :=
  (List.takeWhile_prefix _).length_le

theorem writesInside_iff (platform : Platform) (source : Bytes) (size : Nat) :
    WritesInside platform source size ↔
      advance (takenOf (cString source)) < 2 ^ 31 ∧
        decodedCount (takenOf (cString source)) + 1 ≤ size := by
  have spec := effects_spec platform source
  dsimp only at spec
  split at spec
  · next long =>
      refine iff_of_false ?_ (by omega)
      rintro ⟨effects, result, _⟩
      rw [spec] at result
      cases result
  · next short =>
      rcases spec with ⟨effects, result, ⟨pieces, writes, same⟩, _⟩
      have fits := placed_inside_iff pieces (Nat.zero_le size)
      rw [← writes, same, Nat.zero_add, List.length_append, length_decoded] at fits
      rw [and_iff_right (Nat.not_le.mp short), ← List.length_singleton (a := (0 : Byte)), ← fits]
      constructor
      · rintro ⟨other, found, inside⟩
        rw [result] at found
        cases found
        exact inside
      · intro inside
        exact ⟨effects, result, inside⟩

theorem readsInside_iff (platform : Platform) (source : Bytes) :
    ReadsInside platform source ↔
      advance (takenOf (cString source)) < 2 ^ 31 ∧ .sign ∉ takenOf (cString source) := by
  have spec := effects_spec platform source
  dsimp only at spec
  split at spec
  · next long =>
      refine iff_of_false ?_ (by omega)
      rintro ⟨effects, result, _⟩
      rw [spec] at result
      cases result
  · next short =>
      rcases spec with ⟨effects, result, _, reads⟩
      rw [and_iff_right (Nat.not_le.mp short), ← reads]
      constructor
      · rintro ⟨other, found, inside⟩
        rw [result] at found
        cases found
        exact inside
      · intro inside
        exact ⟨effects, result, inside⟩

/-- What a call reads of any text, and what it writes to the buffer of a word of 128 bytes and
to that of a body, which has twice its length. -/
theorem decodeQuotedPrintable_inside_iff (platform : Platform) (source : Bytes) :
    let done := takenOf (cString source)
    (ReadsInside platform source ↔ advance done < 2 ^ 31 ∧ .sign ∉ done) ∧
    (WritesInside platform source 128 ↔ advance done < 2 ^ 31 ∧ decodedCount done ≤ 127) ∧
    (WritesInside platform source (source.length * 2) ↔
      advance done < 2 ^ 31 ∧ source ≠ []) := by
  intro done
  refine ⟨readsInside_iff platform source, ?_, ?_⟩
  · rw [writesInside_iff, Nat.succ_le_succ_iff]
  · have few := decodedCount_takenOf_le (cString source)
    have shorter := length_cString_le source
    rw [writesInside_iff, ← List.length_pos_iff]
    apply and_congr_right'
    omega

/-- An equals sign at the end sends the decoder behind the text, a word of 128 letters fills
its buffer without the zero, and an empty body has no room for it. -/
theorem decodeQuotedPrintable_leaves_buffers :
    (∀ platform, ¬ ReadsInside platform (ascii "=")) ∧
      (∀ platform, ¬ WritesInside platform (List.replicate 128 97) 128) ∧
      ∀ platform, ¬ WritesInside platform [] (([] : Bytes).length * 2) := by
  refine ⟨?_, ?_, ?_⟩
  · intro platform
    rw [readsInside_iff]
    decide
  · intro platform
    rw [writesInside_iff]
    decide +kernel
  · intro platform
    rw [writesInside_iff]
    decide

end MyBookSources.RecvMail.EncodeUtil
