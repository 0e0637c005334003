import MyBookSources.Foundation.Base64
import MyBookSources.RecvMail.EncodeUtil

/-! # Line breaks in a base64 body

`decode` counts four bytes for a group, but leaves its pointer on the first equals sign of a
padded one. If nothing follows, the count ends the loop. A line break behind the padding lets
it go on, with the equals signs as the next group.
-/

namespace MyBookSources.RecvMail

namespace Base64Util

open Base64 (code digit digit_ne digit_range groups toNat_digit Wrapped)
open EncodeUtil (byteAt_of_drop)

variable (platform : Platform)

/-! ## One group -/

theorem digit_spec {value : Nat} (small : value < 64) :
    tableAt platform (digit value) = BitVec.ofNat 32 value ∧ digit value ≠ 61 ∧
      digit value ≠ 13 ∧ digit value ≠ 10 := by
  have range := digit_range small
  have decoded : ∀ value : Fin 64, DECODE_TABLE.getD (code value) 0 = value := by decide +kernel
  have index : (digit value).toBitVec.toInt = (digit value).toNat :=
    BitVec.toInt_eq_toNat_of_lt (by change 2 * (digit value).toNat < 2 ^ 8; omega)
  refine ⟨?_, digit_ne small (.inr rfl), digit_ne small (.inl (by decide)),
    digit_ne small (.inl (by decide))⟩
  rw [tableAt, index, if_pos ⟨by omega, by omega⟩, toNat_digit small, decoded ⟨value, small⟩]

theorem toNat_shifted (value : BitVec 32) (shift : Nat) :
    (UInt8.ofBitVec ((value >>> shift).setWidth 8)).toNat = value.toNat / 2 ^ shift % 2 ^ 8 := by
  rw [UInt8.toNat_ofBitVec, BitVec.toNat_setWidth, BitVec.toNat_ushiftRight,
    Nat.shiftRight_eq_div_pow]

section

variable {v0 v1 v2 v3 : Nat} (small0 : v0 < 64) (small1 : v1 < 64) (small2 : v2 < 64)
  (small3 : v3 < 64)

include small0 small1 in
theorem first_byte : UInt8.ofBitVec ((((BitVec.ofNat 32 v0 <<< 18) +
    (BitVec.ofNat 32 v1 <<< 12)) >>> 16).setWidth 8) = UInt8.ofNat (v0 * 4 + v1 / 16) := by
  rw [← UInt8.toNat_inj, toNat_shifted, Base64.toNat_two small0 small1, UInt8.toNat_ofNat']
  omega

include small0 small1 small2 in
theorem second_byte : UInt8.ofBitVec ((((BitVec.ofNat 32 v0 <<< 18) +
    (BitVec.ofNat 32 v1 <<< 12) + (BitVec.ofNat 32 v2 <<< 6)) >>> 8).setWidth 8) =
    UInt8.ofNat (v1 % 16 * 16 + v2 / 4) := by
  rw [← UInt8.toNat_inj, toNat_shifted, Base64.toNat_three small0 small1 small2,
    UInt8.toNat_ofNat']
  omega

include small0 small1 small2 small3 in
theorem third_byte : UInt8.ofBitVec (((BitVec.ofNat 32 v0 <<< 18) +
    (BitVec.ofNat 32 v1 <<< 12) + (BitVec.ofNat 32 v2 <<< 6) +
    BitVec.ofNat 32 v3).setWidth 8) = UInt8.ofNat (v2 % 4 * 64 + v3) := by
  rw [← UInt8.toNat_inj, UInt8.toNat_ofBitVec, BitVec.toNat_setWidth,
    Base64.toNat_four small0 small1 small2 small3, UInt8.toNat_ofNat']
  omega

end

section

variable {text rest : Bytes} {nDataByte : Int} {data i : Nat} {c1 c2 c3 c4 : Byte}
  (inside : i < nDataByte) (begins : c1 ≠ 13 ∧ c1 ≠ 10)

include inside begins in
theorem decodeLoop_pair (here : text.drop data = c1 :: c2 :: 61 :: rest) :
    decodeLoop platform text nDataByte data i =
      UInt8.ofBitVec ((((tableAt platform c1 <<< 18) +
        (tableAt platform c2 <<< 12)) >>> 16).setWidth 8) ::
        decodeLoop platform text nDataByte (data + 2) (i + 4) := by
  have char1 := byteAt_of_drop platform 0 (by rw [here]; rfl)
  have char2 := byteAt_of_drop platform 1 (by rw [here]; rfl)
  have char3 := byteAt_of_drop platform 2 (by rw [here]; rfl)
  rw [Nat.add_zero] at char1
  rw [decodeLoop, if_pos inside]
  dsimp only
  rw [char1, char2, char3, if_pos begins, if_neg (fun other => other rfl)]

include inside begins in
theorem decodeLoop_triple (noPad3 : c3 ≠ 61)
    (here : text.drop data = c1 :: c2 :: c3 :: 61 :: rest) :
    decodeLoop platform text nDataByte data i =
      UInt8.ofBitVec ((((tableAt platform c1 <<< 18) +
        (tableAt platform c2 <<< 12)) >>> 16).setWidth 8) ::
        UInt8.ofBitVec ((((tableAt platform c1 <<< 18) + (tableAt platform c2 <<< 12) +
          (tableAt platform c3 <<< 6)) >>> 8).setWidth 8) ::
        decodeLoop platform text nDataByte (data + 3) (i + 4) := by
  have char1 := byteAt_of_drop platform 0 (by rw [here]; rfl)
  have char2 := byteAt_of_drop platform 1 (by rw [here]; rfl)
  have char3 := byteAt_of_drop platform 2 (by rw [here]; rfl)
  have char4 := byteAt_of_drop platform 3 (by rw [here]; rfl)
  rw [Nat.add_zero] at char1
  rw [decodeLoop, if_pos inside]
  dsimp only
  rw [char1, char2, char3, char4, if_pos begins, if_pos noPad3, if_neg (fun other => other rfl)]

include inside begins in
theorem decodeLoop_quadruple (noPad3 : c3 ≠ 61) (noPad4 : c4 ≠ 61)
    (here : text.drop data = c1 :: c2 :: c3 :: c4 :: rest) :
    decodeLoop platform text nDataByte data i =
      UInt8.ofBitVec ((((tableAt platform c1 <<< 18) +
        (tableAt platform c2 <<< 12)) >>> 16).setWidth 8) ::
        UInt8.ofBitVec ((((tableAt platform c1 <<< 18) + (tableAt platform c2 <<< 12) +
          (tableAt platform c3 <<< 6)) >>> 8).setWidth 8) ::
        UInt8.ofBitVec (((tableAt platform c1 <<< 18) + (tableAt platform c2 <<< 12) +
          (tableAt platform c3 <<< 6) + tableAt platform c4).setWidth 8) ::
        decodeLoop platform text nDataByte (data + 4) (i + 4) := by
  have char1 := byteAt_of_drop platform 0 (by rw [here]; rfl)
  have char2 := byteAt_of_drop platform 1 (by rw [here]; rfl)
  have char3 := byteAt_of_drop platform 2 (by rw [here]; rfl)
  have char4 := byteAt_of_drop platform 3 (by rw [here]; rfl)
  rw [Nat.add_zero] at char1
  rw [decodeLoop, if_pos inside]
  dsimp only
  rw [char1, char2, char3, char4, if_pos begins, if_pos noPad3, if_pos noPad4]

end

section

variable {v0 v1 v2 v3 : Nat} (small0 : v0 < 64) (small1 : v1 < 64) (small2 : v2 < 64)
  (small3 : v3 < 64) {text rest : Bytes} {nDataByte : Int} {data : Nat}

include small0 small1 in
theorem decodeLoop_one (here : text.drop data = digit v0 :: digit v1 :: 61 :: rest) (i : Nat)
    (inside : i < nDataByte) :
    decodeLoop platform text nDataByte data i =
      UInt8.ofNat (v0 * 4 + v1 / 16) :: decodeLoop platform text nDataByte (data + 2) (i + 4) := by
  rcases digit_spec platform small0 with ⟨value0, _, begins⟩
  rcases digit_spec platform small1 with ⟨value1, _⟩
  rw [decodeLoop_pair platform inside begins here, value0, value1, first_byte small0 small1]

include small0 small1 small2 in
theorem decodeLoop_two
    (here : text.drop data = digit v0 :: digit v1 :: digit v2 :: 61 :: rest) (i : Nat)
    (inside : i < nDataByte) :
    decodeLoop platform text nDataByte data i =
      UInt8.ofNat (v0 * 4 + v1 / 16) :: UInt8.ofNat (v1 % 16 * 16 + v2 / 4) ::
        decodeLoop platform text nDataByte (data + 3) (i + 4) := by
  rcases digit_spec platform small0 with ⟨value0, _, begins⟩
  rcases digit_spec platform small1 with ⟨value1, _⟩
  rcases digit_spec platform small2 with ⟨value2, noPad, _⟩
  rw [decodeLoop_triple platform inside begins noPad here, value0, value1, value2,
    first_byte small0 small1, second_byte small0 small1 small2]

include small0 small1 small2 small3 in
theorem decodeLoop_three
    (here : text.drop data = digit v0 :: digit v1 :: digit v2 :: digit v3 :: rest) (i : Nat)
    (inside : i < nDataByte) :
    decodeLoop platform text nDataByte data i =
      UInt8.ofNat (v0 * 4 + v1 / 16) :: UInt8.ofNat (v1 % 16 * 16 + v2 / 4) ::
        UInt8.ofNat (v2 % 4 * 64 + v3) ::
          decodeLoop platform text nDataByte (data + 4) (i + 4) := by
  rcases digit_spec platform small0 with ⟨value0, _, begins⟩
  rcases digit_spec platform small1 with ⟨value1, _⟩
  rcases digit_spec platform small2 with ⟨value2, noPad2, _⟩
  rcases digit_spec platform small3 with ⟨value3, noPad3, _⟩
  rw [decodeLoop_quadruple platform inside begins noPad2 noPad3 here, value0, value1, value2,
    value3, first_byte small0 small1, second_byte small0 small1 small2,
    third_byte small0 small1 small2 small3]

end

/-! ## The whole body -/

variable {text rest : Bytes} {nDataByte : Int} {data i : Nat}

theorem decodeLoop_ended (ended : nDataByte ≤ i) :
    decodeLoop platform text nDataByte data i = [] := by
  rw [decodeLoop, if_neg (Int.not_lt.mpr ended)]

theorem decodeLoop_lineEnd {c : Byte} (lineEnd : c = 13 ∨ c = 10)
    (here : text.drop data = c :: rest) (inside : i < nDataByte) :
    decodeLoop platform text nDataByte data i =
      decodeLoop platform text nDataByte (data + 1) (i + 1) := by
  have char := byteAt_of_drop platform 0 (by rw [here]; rfl)
  rw [Nat.add_zero] at char
  rw [decodeLoop, if_pos inside]
  dsimp only
  rw [char, if_neg]
  rintro ⟨noCr, noLf⟩
  exact lineEnd.elim noCr noLf

theorem decodeLoop_eq_nil_iff (pad : EncodeUtil.byteAt platform text data = 61) :
    decodeLoop platform text nDataByte data i = [] ↔ nDataByte ≤ i := by
  rw [decodeLoop]
  split
  · next inside =>
    dsimp only
    rw [pad, if_pos ⟨by decide, by decide⟩]
    refine iff_of_false ?_ (by omega)
    split
    · split <;> exact List.cons_ne_nil _ _
    · exact List.cons_ne_nil _ _
  · next ended => exact iff_of_true rfl (by omega)

theorem padded_ends_iff {group : Bytes} (wrapped : Wrapped [] rest)
    (noLf : group.getLast? ≠ some 10) :
    rest = [] ↔ (group ++ rest).getLast? ≠ some 10 := by
  rcases wrapped.getLast?_of_nil with rfl | last
  · rw [List.append_nil]
    exact iff_of_true rfl noLf
  · refine iff_of_false ?_ ?_
    · rintro rfl
      cases last
    · intro other
      apply other
      rw [List.getLast?_append, last]
      rfl

section Last

variable {c1 c2 : Byte} {later : Bytes} (wrapped : Wrapped [] later)

include wrapped in
theorem decodeLoop_last_one_iff
    (here : text.drop data =
      digit (c1.toNat / 4) :: digit (c1.toNat % 4 * 16) :: 61 :: 61 :: later) :
    decodeLoop platform text text.length data data = [c1] ↔
      ([digit (c1.toNat / 4), digit (c1.toNat % 4 * 16), 61, 61] ++ later).getLast? ≠ some 10 := by
  have bound := c1.toNat_lt
  have small0 : c1.toNat / 4 < 64 := by omega
  have small1 : c1.toNat % 4 * 16 < 64 := by omega
  have length := congrArg List.length here
  simp only [List.length_drop, List.length_cons] at length
  have pad : EncodeUtil.byteAt platform text (data + 2) = 61 :=
    byteAt_of_drop platform _ (by rw [here]; rfl)
  rw [decodeLoop_one platform small0 small1 here data (by omega),
    show c1.toNat % 4 * 16 = c1.toNat % 4 * 16 + 0 from rfl, Base64.join_first c1 (by decide),
    List.cons_eq_cons, and_iff_right rfl, decodeLoop_eq_nil_iff platform pad,
    ← padded_ends_iff wrapped (by simp), ← List.length_eq_zero_iff]
  omega

include wrapped in
theorem decodeLoop_last_two_iff
    (here : text.drop data = digit (c1.toNat / 4) ::
      digit (c1.toNat % 4 * 16 + c2.toNat / 16) :: digit (c2.toNat % 16 * 4) :: 61 :: later) :
    decodeLoop platform text text.length data data = [c1, c2] ↔
      ([digit (c1.toNat / 4), digit (c1.toNat % 4 * 16 + c2.toNat / 16),
        digit (c2.toNat % 16 * 4), 61] ++ later).getLast? ≠ some 10 := by
  have bound1 := c1.toNat_lt
  have bound2 := c2.toNat_lt
  have small0 : c1.toNat / 4 < 64 := by omega
  have small1 : c1.toNat % 4 * 16 + c2.toNat / 16 < 64 := by omega
  have small2 : c2.toNat % 16 * 4 < 64 := by omega
  have length := congrArg List.length here
  simp only [List.length_drop, List.length_cons] at length
  have pad : EncodeUtil.byteAt platform text (data + 3) = 61 :=
    byteAt_of_drop platform _ (by rw [here]; rfl)
  rw [decodeLoop_two platform small0 small1 small2 here data (by omega),
    Base64.join_first c1 (by omega),
    show c2.toNat % 16 * 4 = c2.toNat % 16 * 4 + 0 from rfl, Base64.join_second c1 c2 (by decide),
    List.cons_eq_cons, and_iff_right rfl, List.cons_eq_cons, and_iff_right rfl,
    decodeLoop_eq_nil_iff platform pad, ← padded_ends_iff wrapped (by simp),
    ← List.length_eq_zero_iff]
  omega

end Last

theorem getLast?_append_ne_iff {group : Bytes} (noLf : group.getLast? ≠ some 10) (rest : Bytes) :
    (group ++ rest).getLast? ≠ some 10 ↔ rest.getLast? ≠ some 10 := by
  cases last : rest.getLast? with
  | none =>
      rw [List.getLast?_eq_none_iff.mp last, List.append_nil]
      exact iff_of_true noLf (by decide)
  | some char => rw [List.getLast?_append, last, Option.some_or]

/-- From a place on where the count and the pointer agree, the rest of the body is decoded to
its source exactly if no line break stands behind padding. -/
theorem decodeLoop_wrapped_iff {list : List Bytes} {body : Bytes} (wrapped : Wrapped list body)
    {source : Bytes} (own : groups source = list) {data : Nat} (here : text.drop data = body) :
    decodeLoop platform text text.length data data = source ↔
      source.length % 3 = 0 ∨ body.getLast? ≠ some 10 := by
  induction wrapped generalizing source data with
  | nil =>
      rw [(Base64.groups_eq_nil_iff source).mp own,
        decodeLoop_ended platform (Int.ofNat_le.mpr (List.drop_eq_nil_iff.mp here))]
      exact iff_of_true rfl (.inl rfl)
  | @lineEnd list later wrapped induction =>
      have behindCr : text.drop (data + 1) = 10 :: later := by
        rw [← List.drop_drop, here]
        rfl
      have next : text.drop (data + 2) = later := by
        rw [← List.drop_drop, here]
        rfl
      have length := congrArg List.length here
      simp only [List.length_drop, List.length_cons] at length
      have decoded := induction own next
      rw [decodeLoop_lineEnd platform (.inl rfl) here (by omega),
        decodeLoop_lineEnd platform (.inr rfl) behindCr (by omega)]
      cases later with
      | nil =>
          have ended := decoded.mpr (.inr (by decide))
          have past := Int.ofNat_le.mpr (List.drop_eq_nil_iff.mp next)
          rw [decodeLoop_ended platform past] at ended ⊢
          rw [← ended]
          exact iff_of_true rfl (.inl rfl)
      | cons char later =>
          rw [List.getLast?_cons_cons, List.getLast?_cons_cons]
          exact decoded
  | @group list later group wrapped induction =>
      match source, own with
      | [], own => cases own
      | [c1], own =>
          cases own
          exact (decodeLoop_last_one_iff platform wrapped here).trans (by simp)
      | [c1, c2], own =>
          cases own
          exact (decodeLoop_last_two_iff platform wrapped here).trans (by simp)
      | c1 :: c2 :: c3 :: rest, own =>
          cases own
          have bound1 := c1.toNat_lt
          have bound2 := c2.toNat_lt
          have bound3 := c3.toNat_lt
          have next : text.drop (data + 4) = later := by
            rw [← List.drop_drop, here]
            rfl
          have length := congrArg List.length here
          simp only [List.length_drop, List.length_append, List.length_cons] at length
          have small0 : c1.toNat / 4 < 64 := by omega
          have small1 : c1.toNat % 4 * 16 + c2.toNat / 16 < 64 := by omega
          have small2 : c2.toNat % 16 * 4 + c3.toNat / 64 < 64 := by omega
          have small3 : c3.toNat % 64 < 64 := by omega
          have size : (c1 :: c2 :: c3 :: rest).length % 3 = rest.length % 3 := by
            simp only [List.length_cons]
            omega
          have noLf := (digit_spec platform small3).2.2.2
          rw [decodeLoop_three platform small0 small1 small2 small3 here data (by omega),
            Base64.join_first c1 (by omega), Base64.join_second c1 c2 (by omega),
            Base64.join_third, List.cons_eq_cons, and_iff_right rfl, List.cons_eq_cons,
            and_iff_right rfl, List.cons_eq_cons, and_iff_right rfl, induction rfl next, size,
            getLast?_append_ne_iff (by simpa using noLf)]

theorem decode_iff_of_short {source text : Bytes} (wrapped : Wrapped (groups source) text)
    (short : text.length < 2 ^ 31) :
    decode platform text = source ↔ source.length % 3 = 0 ∨ text.getLast? ≠ some 10 := by
  rw [decode, int32_of_lt short, decodeLoop_wrapped_iff platform wrapped rfl rfl]

/-- A body below two gigabytes is decoded to its source exactly if the source fills its groups
or no line break stands behind the last one. Of a longer one nothing is decoded, as its length
is negative as an `int`. -/
theorem decode_wrapped_iff {source text : Bytes} (wrapped : Wrapped (groups source) text)
    (counted : text.length < 2 ^ 32) :
    decode platform text = source ↔
      source = [] ∨
        text.length < 2 ^ 31 ∧ (source.length % 3 = 0 ∨ text.getLast? ≠ some 10) := by
  by_cases short : text.length < 2 ^ 31
  · rw [decode_iff_of_short platform wrapped short, and_iff_right short]
    refine ⟨.inr, ?_⟩
    rintro (rfl | decoded)
    · exact .inl rfl
    · exact decoded
  · have negative : int32 text.length ≤ 0 := int32_nonpos (by omega) counted
    rw [decode, decodeLoop_ended platform negative]
    constructor
    · exact fun empty => .inl empty.symm
    · rintro (rfl | ⟨less, _⟩)
      · rfl
      · exact absurd less short

/-- A line break between two full groups, and one behind them. -/
theorem decode_wrapped_full_groups :
    Wrapped (groups (ascii "letter")) (ascii "bGV0\r\ndGVy\r\n") ∧
      ∀ platform, decode platform (ascii "bGV0\r\ndGVy\r\n") = ascii "letter" ↔
        ascii "letter" = [] ∨ (ascii "bGV0\r\ndGVy\r\n").length < 2 ^ 31 ∧
          ((ascii "letter").length % 3 = 0 ∨
            (ascii "bGV0\r\ndGVy\r\n").getLast? ≠ some 10) := by
  have own : groups (ascii "letter") = [ascii "bGV0", ascii "dGVy"] := by decide
  have body : ascii "bGV0\r\ndGVy\r\n" =
      ascii "bGV0" ++ 13 :: 10 :: (ascii "dGVy" ++ [13, 10]) := by decide
  have wrapped : Wrapped (groups (ascii "letter")) (ascii "bGV0\r\ndGVy\r\n") := by
    rw [own, body]
    exact .group _ (.lineEnd (.group _ (.lineEnd .nil)))
  exact ⟨wrapped, fun platform => decode_wrapped_iff platform wrapped (by decide)⟩

/-- One letter with its padding and a line break does not come back. -/
theorem padded_line_gains_bytes :
    Wrapped (groups (ascii "f")) (ascii "Zg==\r\n") ∧
      ∀ platform, decode platform (ascii "Zg==\r\n") ≠ ascii "f" := by
  have own : groups (ascii "f") = [ascii "Zg=="] := by decide
  have body : ascii "Zg==\r\n" = ascii "Zg==" ++ [13, 10] := by decide
  have wrapped : Wrapped (groups (ascii "f")) (ascii "Zg==\r\n") := by
    rw [own, body]
    exact .group _ (.lineEnd .nil)
  refine ⟨wrapped, ?_⟩
  intro platform same
  exact absurd ((decode_iff_of_short platform wrapped (by decide)).mp same) (by decide)

end Base64Util

end MyBookSources.RecvMail
