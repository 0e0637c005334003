import MyBookSources.RecvMail.QuotedPrintableMemory

/-! # The round trip of quoted-printable

Whatever encoding of a text is read, with escapes and soft line breaks wherever it likes, the
tokens stand for the text. The decoder reads them all as long as its cursors do not wrap.
-/

namespace MyBookSources.RecvMail.EncodeUtil

open SequentialWrites QuotedPrintable

/-! ## Digits -/

theorem digit_spec {digit value : Byte} (hex : hexValue digit = some value) :
    digitValue digit = value ∧ value < 16 ∧ lineEnd digit = false := by
  have all : ∀ digit : Byte, hexValue digit = none ∨
      ((hexValue digit = some (digitValue digit) ∧ digitValue digit < 16) ∧
        lineEnd digit = false) :=
    forall_byte (by decide +kernel)
  rcases all digit with none | ⟨⟨own, small⟩, noEnd⟩
  · rw [none] at hex
    cases hex
  · rw [own, Option.some.injEq] at hex
    subst hex
    exact ⟨rfl, small, noEnd⟩

theorem join_nibbles {high low : Byte} (small : high < 16) (smallLow : low < 16) :
    (high <<< 4) ||| (low &&& 0x0F) = high * 16 + low := by
  have all : ∀ high low : Fin 16, (UInt8.ofNat high <<< 4) ||| (UInt8.ofNat low &&& 0x0F) =
      UInt8.ofNat high * 16 + UInt8.ofNat low := by
    decide +kernel
  have own := all ⟨high.toNat, UInt8.lt_iff_toNat_lt.mp small⟩
    ⟨low.toNat, UInt8.lt_iff_toNat_lt.mp smallLow⟩
  simpa only [UInt8.ofNat_toNat] using own

theorem octet_of_hexPair {high low byte : Byte} (pair : hexPair high low = some byte) :
    Cursors.octet high low = byte ∧ lineEnd high = false := by
  unfold hexPair at pair
  split at pair
  · next first second one two =>
      rcases digit_spec one with ⟨rfl, small, noEnd⟩
      rcases digit_spec two with ⟨rfl, smallLow, _⟩
      rw [Option.some.injEq] at pair
      exact ⟨by rw [Cursors.octet, join_nibbles small smallLow, pair], noEnd⟩
  · cases pair

/-! ## The tokens of an encoding -/

theorem tokens_of_encodes (platform : Platform) {text code : Bytes}
    (encodes : Encodes text code) :
    decoded platform (tokens code) = text ∧ advance (tokens code) = code.length := by
  induction encodes with
  | nil => exact ⟨rfl, rfl⟩
  | literal other encodes induction =>
      rw [tokens_of_ne other, decoded_cons, advance_cons, induction.1, induction.2,
        List.length_cons, Nat.add_comm]
      exact ⟨rfl, rfl⟩
  | escaped pair encodes induction =>
      rcases octet_of_hexPair pair with ⟨value, noEnd⟩
      rw [tokens_escape noEnd, decoded_cons, advance_cons, induction.1, induction.2,
        Token.decoded, value, Nat.add_comm]
      exact ⟨rfl, rfl⟩
  | softBreak encodes induction =>
      rw [tokens_softBreak rfl rfl, decoded_cons, advance_cons, induction.1, induction.2,
        Nat.add_comm]
      exact ⟨rfl, rfl⟩

/-! ## The text that is written -/

/-- The destination holds the text with its zero, and nothing else is written. -/
def Writes (platform : Platform) (source text : Bytes) : Prop :=
  ∃ effects, DecodeQuotedPrintableInto platform source = some effects ∧
    ∀ place, content effects.writes place = (Write.mk 0 (text ++ [0])).at place

theorem writes_iff_decoded (platform : Platform) {source : Bytes} (noZero : 0 ∉ source)
    (text : Bytes) :
    Writes platform source text ↔
      advance (takenOf source) < 2 ^ 31 ∧ decoded platform (takenOf source) = text := by
  have whole : cString source = source := (cString_eq_iff source).mpr noZero
  have spec := effects_spec platform source
  dsimp only at spec
  rw [whole] at spec
  split at spec
  · next long =>
      refine iff_of_false ?_ (by omega)
      rintro ⟨effects, result, _⟩
      rw [spec] at result
      cases result
  · next short =>
      rcases spec with ⟨effects, result, ⟨pieces, writes, same⟩, _⟩
      have left : (∀ place,
          content effects.writes place = (Write.mk 0 (text ++ [0])).at place) ↔
          decoded platform (takenOf source) = text := by
        rw [← List.append_left_inj [0], ← at_eq_iff, writes, ← same]
        simp only [content_placed]
      rw [and_iff_right (Nat.not_le.mp short), ← left]
      constructor
      · rintro ⟨other, found, holds⟩
        rw [result] at found
        cases found
        exact holds
      · intro holds
        exact ⟨effects, result, holds⟩

theorem taken_append_drop (LEN : Int) (offset : Nat) (list : List Token) :
    taken LEN offset list ++ list.drop (taken LEN offset list).length = list := by
  induction list generalizing offset with
  | nil => rfl
  | cons token rest induction =>
      rw [taken]
      split
      · rw [List.length_cons, List.drop_succ_cons, List.cons_append, induction]
      · rfl

theorem decoded_eq_nil_iff (platform : Platform) (list : List Token) :
    decoded platform list = [] ↔ ∀ token ∈ list, token.isSoftBreak := by
  rw [decoded, List.flatMap_eq_nil_iff]
  simp only [Token.decoded_eq_nil_iff]

/-- Encodings that fit a `long` are always decoded to their text. -/
theorem writes_of_encodes (platform : Platform) {text code : Bytes} (noZero : 0 ∉ text)
    (encodes : Encodes text code) (small : code.length < 2 ^ 31) :
    Writes platform code text := by
  have own := tokens_of_encodes platform encodes
  rw [writes_iff_decoded platform (encodes.noZero noZero), takenOf_of_lt small, own.2]
  exact ⟨small, own.1⟩

/-! ## The decoder -/

/-- An encoding is decoded to its text exactly if only soft line breaks are left when the
wrapped length ends the loop, and the last token taken ends inside a `long`. -/
theorem decodeQuotedPrintable_writes_iff (platform : Platform) {text code : Bytes}
    (noZero : 0 ∉ text) (encodes : Encodes text code) :
    Writes platform code text ↔
      advance (takenOf code) < 2 ^ 31 ∧
        ∀ token ∈ (tokens code).drop (takenOf code).length, token.isSoftBreak := by
  have whole := (tokens_of_encodes platform encodes).1
  have parts := congrArg (decoded platform)
    (taken_append_drop (int32 code.length) 0 (tokens code))
  rw [whole, decoded_append] at parts
  change decoded platform (takenOf code) ++
    decoded platform ((tokens code).drop (takenOf code).length) = text at parts
  rw [writes_iff_decoded platform (encodes.noZero noZero), ← decoded_eq_nil_iff platform]
  apply and_congr_right
  intro _
  constructor
  · intro same
    rw [same] at parts
    exact List.append_right_eq_self.mp parts
  · intro none
    rwa [none, List.append_nil] at parts

/-- An escape in lower case, a soft line break, and a letter. -/
theorem decodeQuotedPrintable_writes_escape :
    ∃ platform : Platform, Writes platform (ascii "=c3=\r\nb") [0xC3, 98] := by
  have spelled : ascii "=c3=\r\nb" = [61, 99, 51, 61, 13, 10, 98] := by decide
  have encodes : Encodes [0xC3, 98] (ascii "=c3=\r\nb") := by
    rw [spelled]
    exact .escaped (by decide) (.softBreak (.literal (by decide) .nil))
  refine ⟨⟨fun _ _ => [], fun _ => [], fun _ => [], fun _ => true, fun _ => 0, fun _ => 0⟩,
    (decodeQuotedPrintable_writes_iff _ (by decide) encodes).mpr ?_⟩
  rw [takenOf_of_lt (by decide)]
  decide +kernel

theorem takenOf_letters {count : Nat} (large : 2 ^ 31 ≤ count) (small : count < 2 ^ 32) :
    takenOf (List.replicate count 97) = [] := by
  cases count with
  | zero => omega
  | succ count =>
      rw [takenOf, List.length_replicate, List.replicate_succ, tokens_of_ne (by decide), taken,
        if_neg]
      rintro (early | ⟨_, differ⟩)
      · unfold int32 at early
        split at early <;> omega
      · cases differ

theorem encodes_letters (count : Nat) :
    Encodes (List.replicate count 97) (List.replicate count 97) := by
  induction count with
  | zero => exact .nil
  | succ count induction =>
      rw [List.replicate_succ]
      exact .literal (by decide) induction

/-- Of two gigabytes of letters nothing is decoded. -/
theorem long_text_lost :
    Encodes (List.replicate (2 ^ 31) 97) (List.replicate (2 ^ 31) 97) ∧
      ∀ platform,
        ¬ Writes platform (List.replicate (2 ^ 31) 97) (List.replicate (2 ^ 31) 97) := by
  refine ⟨encodes_letters _, ?_⟩
  intro platform writes
  have noZero : (0 : Byte) ∉ List.replicate (2 ^ 31) 97 := by
    intro member
    exact absurd (List.eq_of_mem_replicate member) (by decide)
  have same := ((writes_iff_decoded platform noZero _).mp writes).2
  rw [takenOf_letters (Nat.le_refl _) (by omega)] at same
  have length := congrArg List.length same
  rw [List.length_replicate, decoded_nil, List.length_nil] at length
  omega

end MyBookSources.RecvMail.EncodeUtil
