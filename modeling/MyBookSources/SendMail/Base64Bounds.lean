import MyBookSources.SendMail.Base64RoundTrip

/-! # The room for base64

`encode` and `decode` write one byte behind the other from `pDest` on, so that they stay in
front of `pDest[maxDest]` if they write at most `maxDest` bytes. `encode` looks for the room
of a group with the `int` sum `lenDest + 4`, which leaves its type just below `2 ^ 31`; the
negative number that a processor computes passes every test.
-/

namespace MyBookSources.SendMail.Base64Util

/-- All that a call writes from `pDest` on, and what it returns. -/
structure Output where
  bytes : Bytes
  lenDest : Int
  deriving DecidableEq

def Output.behind (front : Bytes) (output : Output) : Output :=
  ⟨front ++ output.bytes, output.lenDest⟩

@[simp] theorem Output.behind_bytes (front : Bytes) (output : Output) :
    (output.behind front).bytes = front ++ output.bytes := rfl

@[simp] theorem Output.behind_lenDest (front : Bytes) (output : Output) :
    (output.behind front).lenDest = output.lenDest := rfl

/-- `encode` with its sums as `int`s and with the final zero, group by group. -/
def encodeInto (outside : Int → Byte) (chMask : Byte) (maxDest : Int) : Int → Bytes → Output
  | lenDest, c1 :: c2 :: c3 :: rest =>
      if maxDest ≤ signed 32 (lenDest + 4) then ⟨[], 0⟩
      else
        (encodeInto outside chMask maxDest (signed 32 (lenDest + 4)) rest).behind
          [tableAt outside ((promoted c1).sshiftRight 2),
            tableAt outside (((promoted c1 <<< 4) ||| (promoted c2).sshiftRight 4) &&& 0x3F),
            tableAt outside (((promoted c2 <<< 2) ||| (promoted c3).sshiftRight 6) &&& 0x3F),
            tableAt outside (promoted c3 &&& 0x3F)]
  | lenDest, [c1, c2] =>
      if maxDest ≤ signed 32 (lenDest + 4) then ⟨[], 0⟩
      else
        ⟨[tableAt outside ((promoted c1 &&& 0xFC).sshiftRight 2),
          tableAt outside (((promoted c1 &&& 0x03) <<< 4) |||
            (promoted c2 &&& 0xF0).sshiftRight 4),
          tableAt outside ((promoted c2 &&& 0x0F) <<< 2),
          chMask, 0], signed 32 (lenDest + 4)⟩
  | lenDest, [c1] =>
      if maxDest ≤ signed 32 (lenDest + 4) then ⟨[], 0⟩
      else
        ⟨[tableAt outside ((promoted c1 &&& 0xFC).sshiftRight 2),
          tableAt outside ((promoted c1 &&& 0x03) <<< 4),
          chMask, chMask, 0], signed 32 (lenDest + 4)⟩
  | lenDest, [] => ⟨[0], lenDest⟩

/-- `encode` of `lenSource` bytes. Where the `int` is negative, there is no group and no tail. -/
def encodeChars (outside : Int → Byte) (source : Bytes) (lenSource : Int) (chMask : Byte)
    (maxDest : Int) : Output :=
  encodeInto outside chMask maxDest 0 (source.take lenSource.toNat)

/-- `decode` with `i` as an `int` and with the final zero; `pSource` is at `position`. -/
def decodeInto (around : Int → Byte) (memory : Nat → Byte) (chMask : Byte)
    (lenSource maxDest i : Int) (position : Nat) (lenDest : Int) : Output :=
  if i < lenSource then
    let two := (decodedAt around (memory position) <<< 18) +
      (decodedAt around (memory (position + 1)) <<< 12)
    if maxDest ≤ lenDest + 1 then ⟨[0], lenDest + 1⟩
    else
      let first := UInt8.ofBitVec (((two &&& 0x00FF0000) >>> 16).setWidth 8)
      if memory (position + 2) = chMask then
        (decodeInto around memory chMask lenSource maxDest (signed 32 (i + 4)) (position + 2)
          (lenDest + 1)).behind [first]
      else
        let three := two + (decodedAt around (memory (position + 2)) <<< 6)
        if maxDest ≤ lenDest + 2 then ⟨[first, 0], lenDest + 2⟩
        else
          let second := UInt8.ofBitVec (((three &&& 0x0000FF00) >>> 8).setWidth 8)
          if memory (position + 3) = chMask then
            (decodeInto around memory chMask lenSource maxDest (signed 32 (i + 4)) (position + 3)
              (lenDest + 2)).behind [first, second]
          else
            let four := three + decodedAt around (memory (position + 3))
            if maxDest ≤ lenDest + 3 then ⟨[first, second, 0], lenDest + 3⟩
            else
              let third := UInt8.ofBitVec ((four &&& 0x000000FF).setWidth 8)
              (decodeInto around memory chMask lenSource maxDest (signed 32 (i + 4))
                (position + 4) (lenDest + 3)).behind [first, second, third]
  else ⟨[0], lenDest⟩
  termination_by (maxDest - lenDest).toNat
  decreasing_by all_goals omega

/-- The length of the encoded text: four characters for each three bytes begun. -/
def encodedSize (source : Bytes) : Nat := 4 * ((source.length + 2) / 3)

/-- What is asked of `encode`: it writes to the buffer only, ends a text that fits with a zero
behind it, and returns the length of the text, or zero if it does not fit. -/
structure EncodeBounded (maxDest : Int) (source : Bytes) (output : Output) : Prop where
  inside : output.bytes.length ≤ maxDest
  complete : encodedSize source < maxDest →
    output.lenDest = encodedSize source ∧ output.bytes[encodedSize source]? = some 0
  refused : source ≠ [] → (output.lenDest = 0 ↔ maxDest ≤ encodedSize source)

/-! ## Decoding -/

/-- Whatever the text, its length and the memory behind it are, `decode` writes to its buffer
only: it looks for the room of each byte, and one is left for the zero. -/
theorem decodeInto_length_le (around : Int → Byte) (memory : Nat → Byte) (chMask : Byte)
    (lenSource maxDest i : Int) (position : Nat) (lenDest : Int) (room : lenDest < maxDest) :
    lenDest + (decodeInto around memory chMask lenSource maxDest i position lenDest).bytes.length ≤
      maxDest := by
  induction i, position, lenDest using
    decodeInto.induct around memory chMask lenSource maxDest with
  | case1 i position lenDest inside full =>
      rw [decodeInto, if_pos inside]
      dsimp only
      rw [if_pos full]
      simp only [List.length_singleton]
      omega
  | case2 i position lenDest inside one mask induction =>
      rw [decodeInto, if_pos inside]
      dsimp only
      rw [if_neg one, if_pos mask]
      have later := induction (by omega)
      simp only [Output.behind_bytes, List.length_append, List.length_singleton]
      omega
  | case3 i position lenDest inside one third full =>
      rw [decodeInto, if_pos inside]
      dsimp only
      rw [if_neg one, if_neg third, if_pos full]
      simp only [List.length_cons, List.length_nil]
      omega
  | case4 i position lenDest inside one third two mask induction =>
      rw [decodeInto, if_pos inside]
      dsimp only
      rw [if_neg one, if_neg third, if_neg two, if_pos mask]
      have later := induction (by omega)
      simp only [Output.behind_bytes, List.length_append, List.length_cons, List.length_nil]
      omega
  | case5 i position lenDest inside one third two fourth full =>
      rw [decodeInto, if_pos inside]
      dsimp only
      rw [if_neg one, if_neg third, if_neg two, if_neg fourth, if_pos full]
      simp only [List.length_cons, List.length_nil]
      omega
  | case6 i position lenDest inside one third two fourth three induction =>
      rw [decodeInto, if_pos inside]
      dsimp only
      rw [if_neg one, if_neg third, if_neg two, if_neg fourth, if_neg three]
      have later := induction (by omega)
      simp only [Output.behind_bytes, List.length_append, List.length_cons, List.length_nil]
      omega
  | case7 i position lenDest outside =>
      rw [decodeInto, if_neg outside]
      simp only [List.length_singleton]
      omega

/-! ## Sums that stay in their type -/

/-- `decodeInto` is `decode` while `i` stays in its type. -/
theorem decodeInto_eq_decodeLoop (around : Int → Byte) (memory : Nat → Byte) (chMask : Byte)
    {lenSource : Nat} (small : lenSource ≤ 2 ^ 31 - 4) (maxDest turns i position lenDest : Nat)
    (covered : lenSource ≤ i + 4 * turns) (needed : i + 4 * turns < lenSource + 4) :
    decodeInto around memory chMask lenSource maxDest i position lenDest =
      ⟨(decodeLoop around memory chMask maxDest turns position lenDest).written ++ [0],
        (decodeLoop around memory chMask maxDest turns position lenDest).lenDest⟩ := by
  induction turns generalizing i position lenDest with
  | zero =>
      rw [decodeInto, if_neg (by omega)]
      rfl
  | succ turns induction =>
      have next : signed 32 ((i : Int) + 4) = (i + 4 : Nat) :=
        signed_of_range (by omega) (by omega)
      rw [decodeInto, if_pos (by omega), decodeLoop]
      dsimp only
      by_cases one : maxDest ≤ lenDest + 1
      · rw [if_pos one, if_pos (by omega)]
        rfl
      · rw [if_neg one, if_neg (by omega)]
        by_cases third : memory (position + 2) = chMask
        · have later := induction (i + 4) (position + 2) (lenDest + 1) (by omega) (by omega)
          rw [if_pos third, if_pos third, next]
          exact congrArg (Output.behind _) later
        · rw [if_neg third, if_neg third]
          by_cases two : maxDest ≤ lenDest + 2
          · rw [if_pos two, if_pos (by omega)]
            rfl
          · rw [if_neg two, if_neg (by omega)]
            by_cases fourth : memory (position + 3) = chMask
            · have later := induction (i + 4) (position + 3) (lenDest + 2) (by omega) (by omega)
              rw [if_pos fourth, if_pos fourth, next]
              exact congrArg (Output.behind _) later
            · rw [if_neg fourth, if_neg fourth]
              by_cases three : maxDest ≤ lenDest + 3
              · rw [if_pos three, if_pos (by omega)]
                rfl
              · have later := induction (i + 4) (position + 4) (lenDest + 3) (by omega)
                  (by omega)
                rw [if_neg three, if_neg (by omega), next]
                exact congrArg (Output.behind _) later

theorem encodedSize_one (c1 : Byte) : encodedSize [c1] = 4 := by
  simp [encodedSize]

theorem encodedSize_two (c1 c2 : Byte) : encodedSize [c1, c2] = 4 := by
  simp [encodedSize]

theorem encodedSize_cons (c1 c2 c3 : Byte) (rest : Bytes) :
    encodedSize (c1 :: c2 :: c3 :: rest) = 4 + encodedSize rest := by
  simp only [encodedSize, List.length_cons]
  omega

theorem encodedSize_eq_zero_iff (source : Bytes) : encodedSize source = 0 ↔ source = [] := by
  rw [← List.length_eq_zero_iff, encodedSize]
  omega

section

variable (outside : Int → Byte) (chMask : Byte) {maxDest lenDest : Int}

theorem encodeInto_of_fits (low : 0 ≤ lenDest) (source : Bytes)
    (small : lenDest + encodedSize source < 2 ^ 31)
    (fits : lenDest + encodedSize source < maxDest) :
    ∃ text, text.length = encodedSize source ∧
      encodeInto outside chMask maxDest lenDest source =
        ⟨text ++ [0], lenDest + encodedSize source⟩ := by
  induction source using groups_induction generalizing lenDest with
  | nil => exact ⟨[], rfl, by simp [encodeInto, encodedSize]⟩
  | one c1 =>
      have size := encodedSize_one c1
      rw [size] at small fits ⊢
      have sum : signed 32 (lenDest + 4) = lenDest + 4 :=
        signed_of_range (by omega) (by omega)
      rw [encodeInto, sum, if_neg (by omega)]
      exact ⟨[_, _, _, _], rfl, rfl⟩
  | two c1 c2 =>
      have size := encodedSize_two c1 c2
      rw [size] at small fits ⊢
      have sum : signed 32 (lenDest + 4) = lenDest + 4 :=
        signed_of_range (by omega) (by omega)
      rw [encodeInto, sum, if_neg (by omega)]
      exact ⟨[_, _, _, _], rfl, rfl⟩
  | group c1 c2 c3 rest induction =>
      rw [encodedSize_cons] at small fits ⊢
      have sum : signed 32 (lenDest + 4) = lenDest + 4 :=
        signed_of_range (by omega) (by omega)
      have total : lenDest + 4 + encodedSize rest = lenDest + (4 + encodedSize rest : Nat) := by
        omega
      rcases @induction (lenDest + 4) (by omega) (by omega) (by omega) with ⟨text, length, later⟩
      rw [encodeInto, sum, if_neg (by omega), later, total, Output.behind, ← List.append_assoc]
      refine ⟨_, ?_, rfl⟩
      simp only [List.length_append, List.length_cons, List.length_nil]
      omega

/-- `encodeInto` is `encode` while its sums stay in their type. -/
theorem encodeInto_eq_encode (outside : Int → Byte) {maxDest : Nat} (lenDest : Nat)
    (source : Bytes) (small : lenDest + encodedSize source < 2 ^ 31)
    (fits : lenDest + encodedSize source < maxDest) :
    encodeInto outside 61 maxDest lenDest source =
      ⟨encode outside maxDest lenDest source ++ [0], encodedLength maxDest lenDest source⟩ := by
  induction source using groups_induction generalizing lenDest with
  | nil => rfl
  | one c1 =>
      rw [encodedSize_one] at small fits
      have sum : signed 32 ((lenDest : Int) + 4) = (lenDest + 4 : Nat) :=
        signed_of_range (by omega) (by omega)
      rw [encodeInto, encode, encodedLength, sum, if_neg (by omega), if_neg (by omega),
        if_neg (by omega)]
      rfl
  | two c1 c2 =>
      rw [encodedSize_two] at small fits
      have sum : signed 32 ((lenDest : Int) + 4) = (lenDest + 4 : Nat) :=
        signed_of_range (by omega) (by omega)
      rw [encodeInto, encode, encodedLength, sum, if_neg (by omega), if_neg (by omega),
        if_neg (by omega)]
      rfl
  | group c1 c2 c3 rest induction =>
      rw [encodedSize_cons] at small fits
      have sum : signed 32 ((lenDest : Int) + 4) = (lenDest + 4 : Nat) :=
        signed_of_range (by omega) (by omega)
      rw [encodeInto, encode, encodedLength, sum, if_neg (by omega), if_neg (by omega),
        if_neg (by omega), induction (lenDest + 4) (by omega) (by omega)]
      rfl

theorem encodeInto_of_full (narrow : maxDest ≤ 2 ^ 31 - 4) (low : 0 ≤ lenDest)
    (room : lenDest < maxDest) (source : Bytes) (full : maxDest ≤ lenDest + encodedSize source) :
    (encodeInto outside chMask maxDest lenDest source).lenDest = 0 ∧
      lenDest + (encodeInto outside chMask maxDest lenDest source).bytes.length < maxDest := by
  have sum : signed 32 (lenDest + 4) = lenDest + 4 :=
    signed_of_range (by omega) (by omega)
  induction source using groups_induction generalizing lenDest with
  | nil =>
      have size := (encodedSize_eq_zero_iff []).mpr rfl
      omega
  | one c1 =>
      have size := encodedSize_one c1
      rw [encodeInto, sum, if_pos (by omega)]
      exact ⟨rfl, by simpa using room⟩
  | two c1 c2 =>
      have size := encodedSize_two c1 c2
      rw [encodeInto, sum, if_pos (by omega)]
      exact ⟨rfl, by simpa using room⟩
  | group c1 c2 c3 rest induction =>
      rw [encodedSize_cons] at full
      rw [encodeInto, sum]
      by_cases enough : lenDest + 4 < maxDest
      · have next : signed 32 (lenDest + 4 + 4) = lenDest + 4 + 4 :=
          signed_of_range (by omega) (by omega)
        have later := @induction (lenDest + 4) (by omega) enough (by omega) next
        rw [if_neg (by omega)]
        simp only [Output.behind_lenDest, Output.behind_bytes, List.length_append,
          List.length_cons, List.length_nil]
        constructor
        · exact later.1
        · omega
      · rw [if_pos (by omega)]
        exact ⟨rfl, by simpa using room⟩

/-! ## Sums that leave their type -/

/-- A multiple of four that is an `int` is at most `2 ^ 31 - 4`. -/
theorem signed_le_of_four (value : Int) (four : value % 4 = 0) :
    signed 32 value ≤ 2 ^ 31 - 4 := by
  have range := Int.bmod_lt (x := value) (m := 2 ^ 32) (by decide)
  have whole := Int.bmod_add_bdiv value (2 ^ 32)
  unfold signed
  omega

/-- Near the end of its type, `lenDest + 4` is below `maxDest` for ever. -/
theorem encodeInto_of_wide (wide : 2 ^ 31 - 3 ≤ maxDest) {value : Int} (four : value % 4 = 0)
    (source : Bytes) :
    (encodeInto outside chMask maxDest (signed 32 value) source).bytes.length =
        encodedSize source + 1 ∧
      (encodeInto outside chMask maxDest (signed 32 value) source).lenDest =
        signed 32 (value + encodedSize source) := by
  induction source using groups_induction generalizing value with
  | nil => simp [encodeInto, encodedSize]
  | one c1 =>
      have sum : signed 32 (signed 32 value + 4) = signed 32 (value + 4) := Int.bmod_add_bmod
      have below := signed_le_of_four (value + 4) (by omega)
      rw [encodeInto, sum, if_neg (by omega), encodedSize_one]
      exact ⟨rfl, rfl⟩
  | two c1 c2 =>
      have sum : signed 32 (signed 32 value + 4) = signed 32 (value + 4) := Int.bmod_add_bmod
      have below := signed_le_of_four (value + 4) (by omega)
      rw [encodeInto, sum, if_neg (by omega), encodedSize_two]
      exact ⟨rfl, rfl⟩
  | group c1 c2 c3 rest induction =>
      have sum : signed 32 (signed 32 value + 4) = signed 32 (value + 4) := Int.bmod_add_bmod
      have below := signed_le_of_four (value + 4) (by omega)
      rcases @induction (value + 4) (by omega) with ⟨length, lenDest⟩
      rw [encodeInto, sum, if_neg (by omega), encodedSize_cons]
      simp only [Output.behind_lenDest, Output.behind_bytes, List.length_append,
        List.length_cons, List.length_nil, length, lenDest]
      constructor
      · omega
      · push_cast
        rw [Int.add_assoc]

end

/-! ## The bounds -/

/-- The longest source whose text has a length below `2 ^ 31`. -/
theorem encodedSize_le_iff (source : Bytes) :
    encodedSize source ≤ 2 ^ 31 - 4 ↔ source.length ≤ 1610612733 := by
  unfold encodedSize
  omega

theorem encodeBounded_of_fits (outside : Int → Byte) (chMask : Byte) {maxDest : Int}
    {source : Bytes} (small : encodedSize source < 2 ^ 31) (fits : encodedSize source < maxDest) :
    EncodeBounded maxDest source (encodeInto outside chMask maxDest 0 source) := by
  have sum : (0 : Int) + encodedSize source = encodedSize source := Int.zero_add _
  rcases @encodeInto_of_fits outside chMask maxDest 0 (Int.le_refl 0) source (by omega)
    (by omega) with ⟨text, length, same⟩
  rw [same, sum]
  constructor
  · change ((text ++ [0]).length : Int) ≤ maxDest
    rw [List.length_append, length]
    change ((encodedSize source + 1 : Nat) : Int) ≤ maxDest
    omega
  · intro _
    exact ⟨rfl, by simp [← length]⟩
  · intro some_byte
    have positive := (encodedSize_eq_zero_iff source).not.mpr some_byte
    constructor
    · intro zero
      change (encodedSize source : Int) = 0 at zero
      omega
    · intro full
      omega

theorem encodeBounded_of_full (outside : Int → Byte) (chMask : Byte) {maxDest : Int}
    (room : 1 ≤ maxDest) (narrow : maxDest ≤ 2 ^ 31 - 4) {source : Bytes}
    (full : maxDest ≤ encodedSize source) :
    EncodeBounded maxDest source (encodeInto outside chMask maxDest 0 source) := by
  rcases encodeInto_of_full outside chMask narrow (Int.le_refl 0) (by omega) source
    (by omega) with ⟨refused, short⟩
  constructor
  · omega
  · intro fits
    omega
  · intro _
    exact iff_of_true refused full

/-- The length of a text that is too long for its type is not returned. -/
theorem not_encodeBounded_of_wide (outside : Int → Byte) (chMask : Byte) {maxDest : Int}
    (wide : 2 ^ 31 - 3 ≤ maxDest) {source : Bytes} (long : 2 ^ 31 ≤ encodedSize source) :
    ¬ EncodeBounded maxDest source (encodeInto outside chMask maxDest 0 source) := by
  have zero : signed 32 0 = 0 := rfl
  have written := @encodeInto_of_wide outside chMask _ wide 0 rfl source
  rw [zero, Int.zero_add] at written
  intro bounded
  have inside := bounded.inside
  have returned := bounded.complete (by omega)
  have small := signed_le_of_four (encodedSize source) (by unfold encodedSize; omega)
  omega

theorem encodeChars_eq (outside : Int → Byte) (chMask : Byte) (maxDest : Int) {source : Bytes}
    (counted : source.length < 2 ^ 31) :
    encodeChars outside source (int32 source.length) chMask maxDest =
      encodeInto outside chMask maxDest 0 source := by
  rw [encodeChars, int32_of_lt counted, Int.toNat_natCast, List.take_length]

/-- `decode` never leaves its buffer. `encode` does what is asked of it except near the end of
the type of `lenDest`, for every length that is an `int`. -/
theorem decode_bounded_encode_bounded_iff (outside around : Int → Byte) (memory : Nat → Byte)
    (chMask : Byte) {source : Bytes} (counted : source.length < 2 ^ 31) (lenSource : Int)
    {maxDest : Int} (room : 1 ≤ maxDest) :
    (decodeInto around memory chMask lenSource maxDest 0 0 0).bytes.length ≤ maxDest ∧
      (EncodeBounded maxDest source
          (encodeChars outside source (int32 source.length) chMask maxDest) ↔
        source.length ≤ 1610612733 ∨ maxDest ≤ 2147483644) := by
  rw [encodeChars_eq outside chMask maxDest counted]
  have size := encodedSize_le_iff source
  have four : encodedSize source % 4 = 0 := Nat.mul_mod_right 4 _
  constructor
  · have inside := decodeInto_length_le around memory chMask lenSource maxDest 0 0 0 (by omega)
    rwa [Int.zero_add] at inside
  · constructor
    · intro bounded
      by_contra far
      rw [not_or] at far
      exact not_encodeBounded_of_wide outside chMask (by omega) (by omega) bounded
    · intro near
      by_cases fits : encodedSize source < maxDest
      · exact encodeBounded_of_fits outside chMask (by omega) fits
      · exact encodeBounded_of_full outside chMask room (by omega) (by omega)

/-- Seven bytes into a buffer of twelve, which is one byte short. -/
theorem small_buffers_bounded :
    EncodeBounded 12 (ascii "seconds") (encodeChars (fun _ => 0) (ascii "seconds")
        (int32 (ascii "seconds").length) 61 12) ∧
      (decodeInto (fun _ => 0) (fun _ => 65) 61 8 12 0 0 0).bytes.length ≤ (12 : Int) := by
  have bounds := @decode_bounded_encode_bounded_iff (fun _ => 0) (fun _ => 0) (fun _ => 65) 61
    (ascii "seconds") (by decide) 8 12 (by decide)
  exact ⟨bounds.2.mpr (.inl (by decide)), bounds.1⟩

theorem encodedSize_replicate (count : Nat) (byte : Byte) :
    encodedSize (List.replicate count byte) = 4 * ((count + 2) / 3) := by
  rw [encodedSize, List.length_replicate]

/-- In the largest buffer, the text of this many letters ends behind the buffer. -/
theorem longest_text_overruns :
    ¬ EncodeBounded 2147483647 (List.replicate 1610612734 65)
      (encodeChars (fun _ => 0) (List.replicate 1610612734 65)
        (int32 (List.replicate 1610612734 (65 : Byte)).length) 61 2147483647) := by
  have counted : (List.replicate 1610612734 (65 : Byte)).length < 2 ^ 31 := by
    rw [List.length_replicate]
    omega
  rw [encodeChars_eq (fun _ => 0) 61 2147483647 counted]
  exact not_encodeBounded_of_wide (fun _ => 0) 61 (by omega)
    (Nat.le_of_eq (encodedSize_replicate 1610612734 65).symm)

end MyBookSources.SendMail.Base64Util
