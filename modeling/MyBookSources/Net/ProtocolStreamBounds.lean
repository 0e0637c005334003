import MyBookSources.Net.ProtocolStream

/-! # Reading inside the buffer

`ReadLengthWithoutOffset` copies the bytes of a length prefix before it compares
their number with what is left, and the constructor puts the cursor behind a
header that may not be there. Apart from these two, a reader stays inside its
buffer, whatever the bytes are and however its calls follow one another.
-/

namespace MyBookSources.Net

open BinaryReadStream

/-- The calls on a reader, with the parameters that bound a field. -/
inductive ReadCall
  | readCString (strlen : Nat)
  | readString (maxlen : Nat)
  | readCCString (maxlen : Nat)
  | readInt32
  | readShort
  | readChar
  | readLength
  | isEnd
  deriving DecidableEq

namespace ReadCall

def run (stream : BinaryReadStream) : ReadCall → ReadOutcome Unit
  | .readCString strlen => (stream.readCString strlen).map fun _ => ()
  | .readString maxlen => (stream.readString maxlen).map fun _ => ()
  | .readCCString maxlen => (stream.readCCString maxlen).map fun _ => ()
  | .readInt32 => stream.readInt32.map fun _ => ()
  | .readShort => stream.readShort.map fun _ => ()
  | .readChar => stream.readChar.map fun _ => ()
  | .readLength => stream.readLength.map fun _ => ()
  | .isEnd => ⟨stream.isEnd.map fun _ => (), none, stream, []⟩

def scansLength : ReadCall → Bool
  | .readCString _ => true
  | .readString _ => true
  | .readCCString _ => true
  | .readLength => true
  | _ => false

end ReadCall

namespace BinaryReadStream

/-- The cursor has not passed the end and never does, and no call reads a byte behind
the end. -/
def StaysInside (stream : BinaryReadStream) : List ReadCall → Prop
  | [] => stream.cur ≤ stream.len
  | call :: calls =>
      stream.cur ≤ stream.len ∧
      (∀ position ∈ (call.run stream).touched, position < stream.len) ∧
      (call.run stream).stream.StaysInside calls

/-- The buffer has five more bytes, or one of the next five that it has ends a length
prefix. -/
def PrefixComplete (stream : BinaryReadStream) : Prop :=
  stream.cur + 5 ≤ stream.len ∨
    ∃ position, stream.cur ≤ position ∧ position < stream.len ∧ position < stream.cur + 5 ∧
      stream.memory position &&& 0x80 = 0

/-- Every call that starts with a length prefix finds a complete one at the cursor. -/
def PrefixesComplete (stream : BinaryReadStream) : List ReadCall → Prop
  | [] => True
  | call :: calls =>
      (call.scansLength = true → stream.PrefixComplete) ∧
      (call.run stream).stream.PrefixesComplete calls

/-! ## The length prefix -/

theorem scanPrefix_inside_iff (memory : Nat → Byte) (len temp room : Nat) :
    temp + (scanPrefix memory temp room).length ≤ len ↔
      temp + room ≤ len ∨ ∃ position, temp ≤ position ∧ position < len ∧
        position < temp + room ∧ memory position &&& 0x80 = 0 := by
  induction room generalizing temp with
  | zero =>
      constructor
      · intro inside
        exact .inl inside
      · intro either
        cases either with
        | inl inside => exact inside
        | inr ended =>
            rcases ended with ⟨position, _, _, _, _⟩
            omega
  | succ room induction =>
      rw [scanPrefix]
      split
      · next ends =>
        constructor
        · intro inside
          exact .inr ⟨temp, by omega, inside, by omega, ends⟩
        · intro either
          have within : temp < len := by
            cases either with
            | inl inside => omega
            | inr ended =>
                rcases ended with ⟨position, _, _, _, _⟩
                omega
          exact within
      · next continues =>
        have counted : temp + (memory temp :: scanPrefix memory (temp + 1) room).length =
            temp + 1 + (scanPrefix memory (temp + 1) room).length := by
          rw [List.length_cons]
          omega
        rw [counted, induction]
        constructor
        · intro either
          cases either with
          | inl inside => exact .inl (by omega)
          | inr ended =>
              rcases ended with ⟨position, _, inside, _, ends⟩
              exact .inr ⟨position, by omega, inside, by omega, ends⟩
        · intro either
          cases either with
          | inl inside => exact .inl (by omega)
          | inr ended =>
              rcases ended with ⟨position, behind, inside, _, ends⟩
              have other : position ≠ temp := by
                intro same
                rw [same] at ends
                exact continues ends
              exact .inr ⟨position, by omega, inside, by omega, ends⟩

variable (stream : BinaryReadStream)

/-- The number of bytes that the length prefix at the cursor takes. -/
def prefixLength : Nat := (scanPrefix stream.memory stream.cur 5).length

theorem prefixLength_pos : 0 < stream.prefixLength := by
  rw [prefixLength, scanPrefix]
  split <;> simp

theorem prefixComplete_iff :
    stream.PrefixComplete ↔ stream.cur + stream.prefixLength ≤ stream.len :=
  (scanPrefix_inside_iff stream.memory stream.len stream.cur 5).symm

@[simp] theorem readLengthWithoutOffset_touched :
    stream.readLengthWithoutOffset.touched =
      List.range' stream.cur stream.prefixLength := by
  rw [readLengthWithoutOffset]
  dsimp only
  split <;> rfl

theorem readLengthWithoutOffset_result {headlen outlen : Nat}
    (read : stream.readLengthWithoutOffset.result = some (headlen, outlen)) :
    headlen = stream.prefixLength ∧ stream.cur + headlen ≤ stream.len := by
  rw [readLengthWithoutOffset] at read
  dsimp only at read
  split at read
  · cases read
  · next inside =>
    cases read
    exact ⟨rfl, Nat.not_lt.mp inside⟩

/-! ## One call -/

/-- The call read nothing behind the end and left the cursor in front of it. -/
structure Within (limit : Nat) (outcome : ReadOutcome α) : Prop where
  touched : ∀ position ∈ outcome.touched, position < limit
  cur : outcome.stream.cur ≤ limit
  len : outcome.stream.len = limit

theorem Within.map {limit : Nat} {outcome : ReadOutcome α} (within : Within limit outcome)
    (change : α → β) : Within limit (outcome.map change) :=
  ⟨within.touched, within.cur, within.len⟩

variable {stream}

theorem range_within {start count limit : Nat} (inside : start + count ≤ limit) :
    ∀ position ∈ List.range' start count, position < limit := by
  intro position member
  rw [List.mem_range'_1] at member
  omega

theorem readLength_within (inside : stream.cur ≤ stream.len)
    (complete : stream.PrefixComplete) : Within stream.len stream.readLength := by
  have scanned := range_within (stream.prefixComplete_iff.mp complete)
  rw [readLength]
  split
  · exact ⟨by simpa using scanned, inside, rfl⟩
  · next headlen outlen read =>
    exact ⟨by simpa using scanned, (stream.readLengthWithoutOffset_result read).2, rfl⟩

theorem locateField_within (refuses : Nat → Bool) (inside : stream.cur ≤ stream.len)
    (complete : stream.PrefixComplete) :
    Within stream.len (stream.locateField refuses) ∧
      ∀ start fieldlen, (stream.locateField refuses).result = some (start, fieldlen) →
        start + fieldlen ≤ stream.len := by
  have scanned := range_within (stream.prefixComplete_iff.mp complete)
  rw [locateField]
  dsimp only
  split
  · exact ⟨⟨by simpa using scanned, inside, rfl⟩, nofun⟩
  · next headlen fieldlen read =>
    have moved := (stream.readLengthWithoutOffset_result read).2
    split
    · exact ⟨⟨by simpa using scanned, inside, rfl⟩, nofun⟩
    · split
      · exact ⟨⟨by simpa using scanned, moved, rfl⟩, nofun⟩
      · next fits =>
        constructor
        · exact ⟨by simpa using scanned, Nat.not_lt.mp fits, rfl⟩
        · intro start length located
          cases located
          exact Nat.not_lt.mp fits

theorem copyField_within (refuses : Nat → Bool) (inside : stream.cur ≤ stream.len)
    (complete : stream.PrefixComplete) :
    Within stream.len (copyField (stream.locateField refuses)) := by
  rcases locateField_within refuses inside complete with ⟨within, located⟩
  rw [copyField]
  split
  · exact ⟨within.touched, within.cur, within.len⟩
  · next start fieldlen found =>
    constructor
    · intro position member
      rw [List.mem_append] at member
      cases member with
      | inl scanned => exact within.touched position scanned
      | inr copied => exact range_within (located start fieldlen found) position copied
    · exact within.cur
    · exact within.len

theorem readValue_within (VALUE_SIZE : Nat) (inside : stream.cur ≤ stream.len) :
    Within stream.len (stream.readValue VALUE_SIZE) := by
  rw [readValue]
  split
  · exact ⟨nofun, inside, rfl⟩
  · next fits =>
    have enough := Nat.not_lt.mp fits
    exact ⟨range_within enough, enough, rfl⟩

theorem run_within (call : ReadCall) (inside : stream.cur ≤ stream.len)
    (complete : call.scansLength = true → stream.PrefixComplete) :
    Within stream.len (call.run stream) := by
  cases call with
  | readCString strlen => exact (copyField_within _ inside (complete rfl)).map _
  | readString maxlen => exact (copyField_within _ inside (complete rfl)).map _
  | readCCString maxlen => exact (locateField_within _ inside (complete rfl)).1.map _
  | readInt32 => exact ((readValue_within 4 inside).map _).map _
  | readShort => exact ((readValue_within 2 inside).map _).map _
  | readChar => exact ((readValue_within 1 inside).map _).map _
  | readLength => exact (readLength_within inside (complete rfl)).map _
  | isEnd => exact ⟨nofun, inside, rfl⟩

theorem locateField_touched (refuses : Nat → Bool) :
    (stream.locateField refuses).touched = List.range' stream.cur stream.prefixLength := by
  rw [locateField]
  dsimp only
  split
  · simp
  · split
    · simp
    · split <;> simp

theorem mem_copyField_touched {located : ReadOutcome (Nat × Nat)} {position : Nat}
    (member : position ∈ located.touched) : position ∈ (copyField located).touched := by
  rw [copyField]
  split
  · exact member
  · exact List.mem_append_left _ member

theorem readLength_touched :
    stream.readLength.touched = List.range' stream.cur stream.prefixLength := by
  rw [readLength]
  split <;> simp

theorem run_touches_length {call : ReadCall} (scans : call.scansLength = true) :
    stream.cur + stream.prefixLength - 1 ∈ (call.run stream).touched := by
  have positive := stream.prefixLength_pos
  have last : stream.cur + stream.prefixLength - 1 ∈
      List.range' stream.cur stream.prefixLength := by
    rw [List.mem_range'_1]
    omega
  cases call with
  | readCString strlen =>
      apply mem_copyField_touched
      rw [locateField_touched]
      exact last
  | readString maxlen =>
      apply mem_copyField_touched
      rw [locateField_touched]
      exact last
  | readCCString maxlen =>
      change _ ∈ (stream.locateField _).touched
      rw [locateField_touched]
      exact last
  | readLength =>
      change _ ∈ stream.readLength.touched
      rw [readLength_touched]
      exact last
  | readInt32 => cases scans
  | readShort => cases scans
  | readChar => cases scans
  | isEnd => cases scans

/-! ## Every sequence of calls -/

/-- From a cursor inside the buffer, the reader stays inside exactly when every length
prefix that it looks for is complete. -/
theorem staysInside_iff {calls : List ReadCall} (inside : stream.cur ≤ stream.len) :
    stream.StaysInside calls ↔ stream.PrefixesComplete calls := by
  induction calls generalizing stream with
  | nil => simp [StaysInside, PrefixesComplete, inside]
  | cons call calls induction =>
      rw [StaysInside, PrefixesComplete]
      constructor
      · intro stays
        rcases stays with ⟨_, touched, later⟩
        have complete : call.scansLength = true → stream.PrefixComplete := by
          intro scans
          have last := touched _ (run_touches_length scans)
          rw [prefixComplete_iff]
          omega
        have within := run_within call inside complete
        have next : (call.run stream).stream.cur ≤ (call.run stream).stream.len := by
          rw [within.len]
          exact within.cur
        exact ⟨complete, (induction next).mp later⟩
      · intro prefixes
        rcases prefixes with ⟨complete, later⟩
        have within := run_within call inside complete
        have next : (call.run stream).stream.cur ≤ (call.run stream).stream.len := by
          rw [within.len]
          exact within.cur
        exact ⟨inside, within.touched, (induction next).mpr later⟩

end BinaryReadStream

/-- A reader stays inside its buffer exactly when the buffer has room for the header
and every length prefix that is looked for is complete. -/
theorem read_stream_staysInside_iff (memory : Nat → Byte) (len : Nat)
    (calls : List ReadCall) :
    (BinaryReadStream.create memory len).StaysInside calls ↔
      BINARY_PACKLEN_LEN_2 + CHECKSUM_LEN ≤ len ∧
        (BinaryReadStream.create memory len).PrefixesComplete calls := by
  constructor
  · intro stays
    have inside : (BinaryReadStream.create memory len).cur ≤ len := by
      cases calls with
      | nil => exact stays
      | cons call calls => exact stays.1
    exact ⟨inside, (staysInside_iff inside).mp stays⟩
  · intro complete
    exact (staysInside_iff complete.1).mpr complete.2

/-- A bare header: the first string read looks at a byte behind it. -/
theorem bare_header_read_leaves_buffer :
    ¬ (BinaryReadStream.create (fun _ => 0) 6).StaysInside [.readString 0] := by
  intro stays
  have behind : (6 : Nat) ∈ (ReadCall.run (BinaryReadStream.create (fun _ => 0) 6)
      (.readString 0)).touched := by decide
  exact absurd (stays.2.1 6 behind) (by decide)

end MyBookSources.Net
