import MyBookSources.Net.ProtocolStreamBounds
import MyBookSources.Net.ProtocolStreamRoundTrip

/-! # Length prefixes that are accepted and reads that fail

`ReadLengthWithoutOffset` stops after five bytes whether or not it has seen the end of
the prefix, and `uncompress_` shifts the groups through 32 bits. So the prefixes that it
should refuse are those of five bytes: the ones that go on, and the ones whose first
group does not fit.

A string reader steps over the prefix before it compares the field with what is left, so
one of its three failing exits leaves the cursor behind the prefix.
-/

namespace MyBookSources.Net

namespace BinaryReadStream

theorem scanPrefix_cases (memory : Nat → Byte) (temp room : Nat) :
    (∃ index, index < room ∧ (scanPrefix memory temp room).length = index + 1 ∧
      memory (temp + index) &&& 0x80 = 0 ∧
      ∀ earlier < index, memory (temp + earlier) &&& 0x80 ≠ 0) ∨
    ((scanPrefix memory temp room).length = room ∧
      ∀ index < room, memory (temp + index) &&& 0x80 ≠ 0) := by
  induction room generalizing temp with
  | zero => exact .inr ⟨rfl, nofun⟩
  | succ room induction =>
      rw [scanPrefix]
      split
      · next ends => exact .inl ⟨0, by omega, rfl, ends, nofun⟩
      · next continues =>
        have shifted : ∀ index, temp + 1 + index = temp + (index + 1) := by
          intro index
          omega
        have front : ∀ {bound : Nat},
            (∀ index < bound, memory (temp + 1 + index) &&& 0x80 ≠ 0) →
            ∀ index < bound + 1, memory (temp + index) &&& 0x80 ≠ 0 := by
          intro bound behind index inside
          cases index with
          | zero => exact continues
          | succ index =>
              rw [← shifted]
              exact behind index (by omega)
        cases induction (temp + 1) with
        | inl found =>
            rcases found with ⟨index, inside, counted, ends, earlier⟩
            rw [shifted] at ends
            exact .inl ⟨index + 1, by omega, by rw [List.length_cons, counted], ends,
              front earlier⟩
        | inr all =>
            exact .inr ⟨by rw [List.length_cons, all.1], front all.2⟩

theorem scanPrefix_eq_bytesAt (memory : Nat → Byte) (temp room : Nat) :
    scanPrefix memory temp room =
      bytesAt memory temp (scanPrefix memory temp room).length := by
  induction room generalizing temp with
  | zero => rfl
  | succ room induction =>
      rw [scanPrefix]
      split
      · rfl
      · rw [List.length_cons, bytesAt_succ, ← induction]

variable (stream : BinaryReadStream)

def prefixBytes : Bytes := bytesAt stream.memory stream.cur stream.prefixLength

/-- The number of the prefix at the cursor, as it comes out of 32 bits. -/
def fieldLength : Nat := Base128.decode stream.prefixBytes % 2 ^ 32

theorem prefixBytes_lt : Base128.decode stream.prefixBytes < 128 ^ stream.prefixLength := by
  have bound := Base128.decode_lt stream.prefixBytes
  rw [prefixBytes, length_bytesAt] at bound
  exact bound

theorem readLengthWithoutOffset_result_eq :
    stream.readLengthWithoutOffset.result =
      if stream.cur + stream.prefixLength ≤ stream.len then
        some (stream.prefixLength, stream.fieldLength)
      else none := by
  have spelled : scanPrefix stream.memory stream.cur 5 = stream.prefixBytes :=
    scanPrefix_eq_bytesAt stream.memory stream.cur 5
  rw [readLengthWithoutOffset]
  dsimp only
  rw [← prefixLength, spelled, uncompress_eq_decode, ← fieldLength]
  by_cases behind : stream.len < stream.cur + stream.prefixLength
  · rw [if_pos behind, if_neg (by omega)]
  · rw [if_neg behind, if_pos (by omega)]

/-- Where the call returns true, the last byte that it consumed ends the prefix, the
number of the prefix fits in 32 bits, and `outlen` is this number. -/
def AcceptsTerminated : Prop :=
  ∀ headlen outlen, stream.readLengthWithoutOffset.result = some (headlen, outlen) →
    0 < headlen ∧ stream.memory (stream.cur + headlen - 1) &&& 0x80 = 0 ∧
    Base128.decode (bytesAt stream.memory stream.cur headlen) < 2 ^ 32 ∧
    outlen = Base128.decode (bytesAt stream.memory stream.cur headlen)

def EndsEarly : Prop := ∃ index < 4, stream.memory (stream.cur + index) &&& 0x80 = 0

/-- The fifth byte ends the prefix, and the first one has less than four bits. -/
def EndsFitting : Prop :=
  stream.memory (stream.cur + 4) &&& 0x80 = 0 ∧ (stream.memory stream.cur).toNat % 128 < 16

theorem acceptsTerminated_iff_of_inside (inside : stream.cur + stream.prefixLength ≤ stream.len) :
    stream.AcceptsTerminated ↔
      stream.memory (stream.cur + stream.prefixLength - 1) &&& 0x80 = 0 ∧
        Base128.decode stream.prefixBytes < 2 ^ 32 := by
  have result := stream.readLengthWithoutOffset_result_eq
  rw [if_pos inside] at result
  constructor
  · intro accepts
    rcases accepts _ _ result with ⟨_, ends, fits, _⟩
    exact ⟨ends, fits⟩
  · intro ended headlen outlen read
    rw [result] at read
    cases read
    exact ⟨stream.prefixLength_pos, ended.1, ended.2, Nat.mod_eq_of_lt ended.2⟩

theorem acceptsTerminated_of_outside (outside : stream.len < stream.cur + stream.prefixLength) :
    stream.AcceptsTerminated := by
  intro headlen outlen read
  rw [readLengthWithoutOffset_result_eq, if_neg (by omega)] at read
  cases read

theorem prefixBytes_fits_iff (full : stream.prefixLength = 5) :
    Base128.decode stream.prefixBytes < 2 ^ 32 ↔
      (stream.memory stream.cur).toNat % 128 < 16 := by
  have groups : Base128.decode stream.prefixBytes =
      (stream.memory stream.cur).toNat % 128 * 128 ^ 4 +
        Base128.decode (bytesAt stream.memory (stream.cur + 1) 4) := by
    rw [prefixBytes, full, bytesAt_succ, Base128.decode_cons, length_bytesAt]
  have low := Base128.decode_lt (bytesAt stream.memory (stream.cur + 1) 4)
  rw [length_bytesAt] at low
  rw [groups]
  omega

/-- The call accepts only terminated prefixes that fit exactly where the prefix ends
within four bytes, or the buffer ends before the fifth one, or the fifth byte ends a
prefix whose first group fits. -/
theorem acceptsTerminated_iff :
    stream.AcceptsTerminated ↔
      stream.EndsEarly ∨ stream.len < stream.cur + 5 ∨ stream.EndsFitting := by
  cases scanPrefix_cases stream.memory stream.cur 5 with
  | inl found =>
      rcases found with ⟨index, inside, counted, ends, earlier⟩
      change stream.prefixLength = index + 1 at counted
      have last : stream.cur + stream.prefixLength - 1 = stream.cur + index := by
        omega
      by_cases early : index < 4
      · have bound := stream.prefixBytes_lt
        have power : 128 ^ stream.prefixLength ≤ 128 ^ 4 :=
          Nat.pow_le_pow_right (by decide) (by omega)
        have accepts : stream.AcceptsTerminated := by
          by_cases within : stream.cur + stream.prefixLength ≤ stream.len
          · rw [stream.acceptsTerminated_iff_of_inside within, last]
            exact ⟨ends, by omega⟩
          · exact stream.acceptsTerminated_of_outside (by omega)
        exact iff_of_true accepts (.inl ⟨index, early, ends⟩)
      · have fifth : index = 4 := by omega
        subst fifth
        have notEarly : ¬ stream.EndsEarly := by
          intro endsEarly
          rcases endsEarly with ⟨front, small, clear⟩
          exact earlier front small clear
        by_cases within : stream.cur + stream.prefixLength ≤ stream.len
        · rw [stream.acceptsTerminated_iff_of_inside within, last,
            stream.prefixBytes_fits_iff counted, or_iff_right notEarly,
            or_iff_right (by omega), EndsFitting]
        · exact iff_of_true (stream.acceptsTerminated_of_outside (by omega))
            (.inr (.inl (by omega)))
  | inr all =>
      rcases all with ⟨full, continues⟩
      change stream.prefixLength = 5 at full
      have notEarly : ¬ stream.EndsEarly := by
        intro endsEarly
        rcases endsEarly with ⟨index, small, clear⟩
        exact continues index (by omega) clear
      have notFitting : ¬ stream.EndsFitting := by
        intro fitting
        exact continues 4 (by decide) fitting.1
      by_cases within : stream.cur + stream.prefixLength ≤ stream.len
      · have last : stream.cur + stream.prefixLength - 1 = stream.cur + 4 := by
          omega
        have goesOn : ¬ stream.memory (stream.cur + 4) &&& 0x80 = 0 :=
          continues 4 (by decide)
        rw [stream.acceptsTerminated_iff_of_inside within, last, or_iff_right notEarly]
        apply iff_of_false
        · intro ended
          exact goesOn ended.1
        · intro either
          cases either with
          | inl outside => omega
          | inr fitting => exact notFitting fitting
      · exact iff_of_true (stream.acceptsTerminated_of_outside (by omega))
          (.inr (.inl (by omega)))

end BinaryReadStream

/-- Five bytes `0xFF` have no end and are accepted as the length `2 ^ 32 - 1`; the five
bytes of `2 ^ 32` are accepted as the length 0. -/
theorem unterminated_prefix_accepted :
    ¬ (BinaryReadStream.create (fun _ => 0xFF) 11).AcceptsTerminated ∧
    ¬ (BinaryReadStream.create (fun position => if position = 6 then 0x90
        else if position = 10 then 0 else 0x80) 11).AcceptsTerminated := by
  constructor
  · intro accepts
    have read : (BinaryReadStream.create (fun _ => 0xFF) 11).readLengthWithoutOffset.result =
        some (5, 2 ^ 32 - 1) := by decide
    exact absurd (accepts _ _ read).2.1 (by decide)
  · intro accepts
    have read : (BinaryReadStream.create (fun position => if position = 6 then 0x90
        else if position = 10 then 0 else 0x80) 11).readLengthWithoutOffset.result =
        some (5, 0) := by decide
    exact absurd (accepts _ _ read).2.2.1 (by decide)

/-! ## Reads that fail -/

/-- The test of a string reader on the field length, none for the other calls. -/
def ReadCall.refuses : ReadCall → Option (Nat → Bool)
  | .readCString strlen => some fun fieldlen => strlen < fieldlen
  | .readString maxlen => some fun fieldlen => maxlen ≠ 0 && maxlen < fieldlen
  | .readCCString maxlen => some fun fieldlen => maxlen ≠ 0 && maxlen < fieldlen
  | _ => none

namespace BinaryReadStream

/-- A call that returns false has not moved the cursor. -/
def FailsInPlace (stream : BinaryReadStream) (call : ReadCall) : Prop :=
  (call.run stream).result = none → (call.run stream).stream.cur = stream.cur

/-- The prefix at the cursor is in the buffer and announces a field that passes the test
and is longer than what the buffer has behind the prefix. -/
structure FieldCutShort (stream : BinaryReadStream) (refuses : Nat → Bool) : Prop where
  inside : stream.cur + stream.prefixLength ≤ stream.len
  accepted : refuses stream.fieldLength = false
  short : stream.len < stream.cur + stream.prefixLength + stream.fieldLength

/-- The call is a string reader in front of a field that is cut short. -/
def CutShort (stream : BinaryReadStream) (call : ReadCall) : Prop :=
  ∃ refuses, call.refuses = some refuses ∧ stream.FieldCutShort refuses

variable (stream : BinaryReadStream)

/-- What a string reader does before it copies: it fails behind the prefix of a field that
is cut short, it fails at the cursor, or it finds the field. -/
theorem locateField_cases (refuses : Nat → Bool) :
    ((stream.locateField refuses).result = none ∧
        (stream.locateField refuses).stream = stream.advance stream.prefixLength ∧
        stream.FieldCutShort refuses) ∨
      ((stream.locateField refuses).result = none ∧
        (stream.locateField refuses).stream = stream ∧ ¬ stream.FieldCutShort refuses) ∨
      ((stream.locateField refuses).result.isSome = true ∧
        ¬ stream.FieldCutShort refuses) := by
  have prefixed := stream.readLengthWithoutOffset_result_eq
  rw [locateField]
  dsimp only
  by_cases inside : stream.cur + stream.prefixLength ≤ stream.len
  · rw [if_pos inside] at prefixed
    simp only [prefixed]
    cases refused : refuses stream.fieldLength with
    | true =>
        have other : ¬ stream.FieldCutShort refuses := by
          intro cut
          rw [cut.accepted] at refused
          cases refused
        simp [other]
    | false =>
        simp only [Bool.false_eq_true, if_false]
        split
        · next short => exact .inl ⟨rfl, rfl, inside, refused, short⟩
        · next fits => exact .inr (.inr ⟨rfl, fun cut => fits cut.short⟩)
  · rw [if_neg inside] at prefixed
    have other : ¬ stream.FieldCutShort refuses := fun cut => inside cut.inside
    simp [prefixed, other]

theorem copyField_result_eq_none (located : ReadOutcome (Nat × Nat)) :
    (copyField located).result = none ↔ located.result = none := by
  rw [copyField]
  split
  · next nothing => simp [nothing]
  · next start fieldlen found => simp [found]

theorem copyField_stream (located : ReadOutcome (Nat × Nat)) :
    (copyField located).stream = located.stream := by
  rw [copyField]
  split <;> rfl

/-- The string readers fail where the field is not found, and leave the cursor where the
search for it has left it. -/
theorem run_of_refuses {call : ReadCall} {refuses : Nat → Bool}
    (tests : call.refuses = some refuses) :
    ((call.run stream).result = none ↔ (stream.locateField refuses).result = none) ∧
      (call.run stream).stream = (stream.locateField refuses).stream := by
  cases call with
  | readCString strlen =>
      cases tests
      constructor
      · rw [← copyField_result_eq_none]
        exact Option.map_eq_none_iff
      · exact copyField_stream _
  | readString maxlen =>
      cases tests
      constructor
      · rw [← copyField_result_eq_none]
        exact Option.map_eq_none_iff
      · exact copyField_stream _
  | readCCString maxlen =>
      cases tests
      exact ⟨Option.map_eq_none_iff, rfl⟩
  | readInt32 => cases tests
  | readShort => cases tests
  | readChar => cases tests
  | readLength => cases tests
  | isEnd => cases tests

theorem readValue_failed {VALUE_SIZE : Nat}
    (failed : (stream.readValue VALUE_SIZE).result = none) :
    (stream.readValue VALUE_SIZE).stream = stream := by
  rw [readValue] at failed ⊢
  split at failed
  · next short => rw [if_pos short]
  · cases failed

theorem readLength_failed (failed : stream.readLength.result = none) :
    stream.readLength.stream = stream := by
  rw [readLength] at failed ⊢
  cases prefixed : stream.readLengthWithoutOffset.result with
  | none => rfl
  | some found =>
      rw [prefixed] at failed
      cases failed

/-- The calls that are no string readers compare before they move the cursor. -/
theorem failsInPlace_of_not_refuses {call : ReadCall} (other : call.refuses = none) :
    stream.FailsInPlace call := by
  have unmapped : ∀ {α β : Type} {outcome : ReadOutcome α} {change : α → β},
      (outcome.map change).result = none → outcome.result = none := by
    intro α β outcome change failed
    exact Option.map_eq_none_iff.mp failed
  intro failed
  cases call with
  | readCString strlen => cases other
  | readString maxlen => cases other
  | readCCString maxlen => cases other
  | readInt32 =>
      exact congrArg BinaryReadStream.cur (stream.readValue_failed (unmapped (unmapped failed)))
  | readShort =>
      exact congrArg BinaryReadStream.cur (stream.readValue_failed (unmapped (unmapped failed)))
  | readChar =>
      exact congrArg BinaryReadStream.cur (stream.readValue_failed (unmapped (unmapped failed)))
  | readLength =>
      exact congrArg BinaryReadStream.cur (stream.readLength_failed (unmapped failed))
  | isEnd => rfl

/-- A failed read leaves the cursor where it was exactly when it is not a string reader at
a field that is cut short. -/
theorem failsInPlace_iff (call : ReadCall) :
    stream.FailsInPlace call ↔ ¬ stream.CutShort call := by
  cases tests : call.refuses with
  | none =>
      apply iff_of_true (stream.failsInPlace_of_not_refuses tests)
      intro short
      rcases short with ⟨refuses, given, _⟩
      rw [tests] at given
      cases given
  | some refuses =>
      rcases stream.run_of_refuses tests with ⟨fails, left⟩
      have cutShort : stream.CutShort call ↔ stream.FieldCutShort refuses := by
        simp [CutShort, tests]
      rw [FailsInPlace, left, fails, cutShort]
      rcases stream.locateField_cases refuses with moved | stayed | found
      · rcases moved with ⟨failed, behind, short⟩
        have positive := stream.prefixLength_pos
        apply iff_of_false
        · intro inPlace
          have same := inPlace failed
          rw [behind, advance] at same
          dsimp only at same
          omega
        · intro fits
          exact fits short
      · rcases stayed with ⟨_, unmoved, whole⟩
        apply iff_of_true
        · intro _
          rw [unmoved]
        · exact whole
      · rcases found with ⟨located, whole⟩
        apply iff_of_true
        · intro failed
          rw [failed] at located
          cases located
        · exact whole

end BinaryReadStream

/-- A string that says it has five bytes, of which the buffer has two: the read fails and
the cursor has passed the prefix. -/
theorem failed_read_moves_cursor :
    ¬ (BinaryReadStream.create (fun position => if position = 6 then 5 else 0)
      9).FailsInPlace (.readString 0) := by
  intro inPlace
  exact absurd (inPlace (by decide)) (by decide)

end MyBookSources.Net
