import MyBookSources.Foundation.Bytes
import Mathlib.Data.List.Induction

/-! # Self-delimiting encodings

An encoding is self-delimiting when a reader finds its end without knowing what
follows. Values written one behind the other are then read back one by one. The
second part gives such an encoding of the natural numbers: groups of seven bits,
most significant group first, where every byte but the last carries a
continuation bit.
-/

namespace MyBookSources

/-! ## Sequences of values -/

def readSequence (read : State → Kind → Option (Value × State)) :
    State → List Kind → Option (List Value × State)
  | state, [] => some ([], state)
  | state, kind :: kinds =>
      (read state kind).bind fun first =>
        (readSequence read first.2 kinds).map fun others => (first.1 :: others.1, others.2)

/-- If each value is read back in front of anything, a sequence of values is. `holds`
says which bytes a state has still to read, `fits` which kind a value is read as. -/
theorem readSequence_encoded {read : State → Kind → Option (Value × State)}
    {holds : State → Bytes → Prop} {encode : Value → Bytes} {fits : Value → Kind → Prop}
    (each : ∀ state value kind rest, fits value kind → holds state (encode value ++ rest) →
      ∃ next, read state kind = some (value, next) ∧ holds next rest)
    {values : List Value} {kinds : List Kind} (matching : List.Forall₂ fits values kinds)
    {state : State} {rest : Bytes} (held : holds state (values.flatMap encode ++ rest)) :
    ∃ last, readSequence read state kinds = some (values, last) ∧ holds last rest := by
  induction matching generalizing state with
  | nil => exact ⟨state, rfl, held⟩
  | @cons value kind values kinds fitting _ induction =>
      rw [List.flatMap_cons, List.append_assoc] at held
      rcases each state value kind _ fitting held with ⟨next, first, remaining⟩
      rcases induction remaining with ⟨last, others, ended⟩
      apply Exists.intro last
      constructor
      · simp [readSequence, first, others]
      · exact ended

/-! ## Base 128 with continuation bits -/

namespace Base128

def continued (group : Nat) : Byte := UInt8.ofNat (group % 128 + 128)

def final (group : Nat) : Byte := UInt8.ofNat (group % 128)

/-- The groups of a number in front of the last one, without leading zeros. -/
def encodeHigh (value : Nat) : Bytes :=
  if value = 0 then [] else encodeHigh (value / 128) ++ [continued value]
termination_by value

def encode (value : Nat) : Bytes := encodeHigh (value / 128) ++ [final value]

/-- The number that a byte string spells; the continuation bits do not count. -/
def decode (bytes : Bytes) : Nat :=
  bytes.foldl (fun value byte => value * 128 + byte.toNat % 128) 0

/-- The bytes up to the first one without the continuation bit, `limit` at most. -/
def scan : (limit : Nat) → Bytes → Bytes
  | 0, _ => []
  | _ + 1, [] => []
  | limit + 1, byte :: rest =>
      if byte.toNat < 128 then [byte] else byte :: scan limit rest

@[simp] theorem toNat_continued (group : Nat) :
    (continued group).toNat = group % 128 + 128 := by
  simp only [continued, UInt8.toNat_ofNat']
  omega

@[simp] theorem toNat_final (group : Nat) : (final group).toNat = group % 128 := by
  simp only [final, UInt8.toNat_ofNat']
  omega

@[simp] theorem encodeHigh_zero : encodeHigh 0 = [] := by
  rw [encodeHigh]
  simp

theorem encodeHigh_of_pos {value : Nat} (positive : value ≠ 0) :
    encodeHigh value = encodeHigh (value / 128) ++ [continued value] := by
  rw [encodeHigh, if_neg positive]

theorem encodeHigh_eq_nil_iff (value : Nat) : encodeHigh value = [] ↔ value = 0 := by
  constructor
  · intro empty
    by_contra positive
    rw [encodeHigh_of_pos positive] at empty
    simp at empty
  · intro zero
    rw [zero, encodeHigh_zero]

theorem decode_append_singleton (bytes : Bytes) (byte : Byte) :
    decode (bytes ++ [byte]) = decode bytes * 128 + byte.toNat % 128 := by
  simp [decode]

theorem decode_lt (bytes : Bytes) : decode bytes < 128 ^ bytes.length := by
  induction bytes using List.reverseRecOn with
  | nil => decide
  | append_singleton bytes byte induction =>
      have group : byte.toNat % 128 < 128 := Nat.mod_lt _ (by decide)
      rw [decode_append_singleton, List.length_append, List.length_singleton, Nat.pow_succ]
      omega

theorem decode_cons (byte : Byte) (rest : Bytes) :
    decode (byte :: rest) = byte.toNat % 128 * 128 ^ rest.length + decode rest := by
  induction rest using List.reverseRecOn with
  | nil => simp [decode]
  | append_singleton rest last induction =>
      rw [← List.cons_append, decode_append_singleton, induction, decode_append_singleton,
        List.length_append, List.length_singleton, Nat.pow_succ]
      ring

theorem decode_encodeHigh (value : Nat) : decode (encodeHigh value) = value := by
  induction value using Nat.strongRecOn with
  | ind value induction =>
      by_cases zero : value = 0
      · rw [zero, encodeHigh_zero]
        rfl
      · rw [encodeHigh_of_pos zero, decode_append_singleton,
          induction (value / 128) (by omega), toNat_continued]
        omega

theorem decode_encode (value : Nat) : decode (encode value) = value := by
  rw [encode, decode_append_singleton, decode_encodeHigh, toNat_final]
  omega

theorem length_encodeHigh_le {value count : Nat} (small : value < 128 ^ count) :
    (encodeHigh value).length ≤ count := by
  induction count generalizing value with
  | zero =>
      have zero : value = 0 := by simpa using small
      simp [zero]
  | succ count induction =>
      by_cases zero : value = 0
      · simp [zero]
      · rw [encodeHigh_of_pos zero, List.length_append]
        have high : value / 128 < 128 ^ count := by
          apply Nat.div_lt_of_lt_mul
          rw [Nat.mul_comm, ← Nat.pow_succ]
          exact small
        have fewer := induction high
        simp only [List.length_singleton]
        omega

theorem length_encode_le {value count : Nat} (small : value < 128 ^ (count + 1)) :
    (encode value).length ≤ count + 1 := by
  have high : value / 128 < 128 ^ count := by
    apply Nat.div_lt_of_lt_mul
    rw [Nat.mul_comm, ← Nat.pow_succ]
    exact small
  have fewer := length_encodeHigh_le high
  simp only [encode, List.length_append, List.length_singleton]
  omega

theorem mem_encodeHigh {value : Nat} {byte : Byte} (member : byte ∈ encodeHigh value) :
    128 ≤ byte.toNat := by
  induction value using Nat.strongRecOn with
  | ind value induction =>
      by_cases zero : value = 0
      · rw [zero, encodeHigh_zero] at member
        cases member
      · rw [encodeHigh_of_pos zero, List.mem_append, List.mem_singleton] at member
        cases member with
        | inl earlier => exact induction (value / 128) (by omega) earlier
        | inr last =>
            rw [last, toNat_continued]
            omega

theorem scan_append {front : Bytes} (continues : ∀ byte ∈ front, 128 ≤ byte.toNat)
    (limit : Nat) (rest : Bytes) :
    scan (front.length + limit) (front ++ rest) = front ++ scan limit rest := by
  induction front with
  | nil => simp
  | cons byte front induction =>
      have high : ¬ byte.toNat < 128 := Nat.not_lt.mpr (continues byte (by simp))
      have others : ∀ other ∈ front, 128 ≤ other.toNat := by
        intro other member
        exact continues other (by simp [member])
      have counted : (byte :: front).length + limit = front.length + limit + 1 := by
        simp only [List.length_cons]
        omega
      rw [counted, List.cons_append, scan, if_neg high, induction others, List.cons_append]

/-- An encoded number is self-delimiting: whatever follows it, the scan finds its end. -/
theorem scan_encode {value limit : Nat} (fits : (encode value).length ≤ limit)
    (rest : Bytes) : scan limit (encode value ++ rest) = encode value := by
  have counted : limit = (encodeHigh (value / 128)).length +
      (limit - (encodeHigh (value / 128)).length) := by
    simp only [encode, List.length_append, List.length_singleton] at fits
    omega
  have more : ∃ spare, limit - (encodeHigh (value / 128)).length = spare + 1 := by
    simp only [encode, List.length_append, List.length_singleton] at fits
    exact ⟨limit - (encodeHigh (value / 128)).length - 1, by omega⟩
  rcases more with ⟨spare, positive⟩
  have low : (final value).toNat < 128 := by
    rw [toNat_final]
    omega
  rw [counted, encode, List.append_assoc, scan_append (fun _ => mem_encodeHigh), positive,
    List.singleton_append, scan, if_pos low]

end Base128

end MyBookSources
