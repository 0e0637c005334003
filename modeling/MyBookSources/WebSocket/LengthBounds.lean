import MyBookSources.WebSocket.PackageDecoding

/-! # The largest lengths

The length of a package is compared with the bytes received as a signed 64-bit sum of its header
and its body. The body's length is the client's, and only lengths that are too small for their
form are refused; just below `2 ^ 63` the sum leaves its type and what a processor computes is
negative, which passes the test.
-/

namespace MyBookSources.WebSocket

namespace MyWebSocketSession

/-- The sum `headerSize + bodyLength` as it is stored in 64 bits. -/
def lengthSum (headerSize bodyLength : Nat) : Int :=
  signed 64 (headerSize + bodyLength)

/-- The sum does not overflow, and if the test lets the payload be copied it has been received. -/
def CopySafe (unread : Bytes) : Prop :=
  ∀ headerSize bodyLength, packageLength unread = .known headerSize bodyLength →
    headerSize + bodyLength < 2 ^ 63 ∧
      (lengthSum headerSize bodyLength ≤ int32 unread.length →
        headerSize + bodyLength ≤ unread.length)

/-- The eight bytes of the length give a number below `2 ^ 63` that the header takes beyond. -/
def LengthAtTop (unread : Bytes) : Prop :=
  payloadLength unread = 127 ∧ keySize unread + 10 ≤ int32 unread.length ∧
    BigEndian.decode ((pBytes unread).slice 2 10) < 2 ^ 63 ∧
    2 ^ 63 ≤ keySize unread + 10 + BigEndian.decode ((pBytes unread).slice 2 10)

theorem lengthSum_of_lt {headerSize bodyLength : Nat} (fits : headerSize + bodyLength < 2 ^ 63) :
    lengthSum headerSize bodyLength = headerSize + bodyLength := by
  rw [lengthSum, signed, Int.bmod_eq_of_le_mul_two] <;> omega

/-- Only an eight-byte length makes the sum overflow. -/
theorem overflow_iff (unread : Bytes) :
    (∃ headerSize bodyLength, packageLength unread = .known headerSize bodyLength ∧
      2 ^ 63 ≤ headerSize + bodyLength) ↔ LengthAtTop unread := by
  have key := keySize_le unread
  have longest := payloadLength_lt unread
  have field : BigEndian.decode ((pBytes unread).slice 2 10) < 256 ^ 8 :=
    decode_slice_lt _ 2 10
  constructor
  · rintro ⟨headerSize, bodyLength, known, long⟩
    rcases Nat.lt_or_ge (payloadLength unread) 126 with short | extended
    · rw [packageLength_short short] at known
      injection known with header body
      split at header <;> omega
    · rcases Nat.eq_or_lt_of_le extended with two | eight
      · rw [packageLength_two_of_count two.symm] at known
        have bound : BigEndian.decode ((pBytes unread).slice 2 4) < 256 ^ 2 :=
          decode_slice_lt _ 2 4
        split at known
        · cases known
        · split at known
          · cases known
          · injection known with header body
            omega
      · rw [packageLength_eight_of_count (by omega)] at known
        split at known
        · cases known
        · next copied =>
          split at known
          · cases known
          · next legal =>
            have positive : BigEndian.decode ((pBytes unread).slice 2 10) < 2 ^ 63 := by
              unfold int64 at legal
              split at legal <;> omega
            injection known with header body
            rw [int64_of_lt positive, Int.toNat_natCast] at body
            exact ⟨by omega, by omega, positive, by omega⟩
  · rintro ⟨eight, copied, positive, top⟩
    refine ⟨keySize unread + 10, BigEndian.decode ((pBytes unread).slice 2 10), ?_, top⟩
    rw [packageLength_eight_of_count eight, int64_of_lt positive, if_neg (by omega),
      if_neg (by omega), Int.toNat_natCast]

/-- The model of `decodePackage` refuses exactly these buffers. -/
theorem decodePackage_eq_none_iff (platform : Platform) (session : MyWebSocketSession)
    (unread : Bytes) : session.decodePackage platform unread = none ↔ LengthAtTop unread := by
  rw [← overflow_iff]
  constructor
  · intro refused
    unfold decodePackage at refused
    split at refused
    · cases refused
    · cases refused
    · next headerSize bodyLength known =>
      split at refused
      · next long => exact ⟨headerSize, bodyLength, known, long⟩
      · split at refused <;> cases refused
  · rintro ⟨headerSize, bodyLength, known, long⟩
    exact decodePackage_overflow known platform session long

/-- The sum and the copy are safe exactly if the length is not at the top of its range. -/
theorem copySafe_iff (unread : Bytes) : CopySafe unread ↔ ¬ LengthAtTop unread := by
  rw [← overflow_iff]
  constructor
  · rintro safe ⟨headerSize, bodyLength, known, long⟩
    have fits := (safe headerSize bodyLength known).1
    omega
  · intro noOverflow headerSize bodyLength known
    have fits : headerSize + bodyLength < 2 ^ 63 := by
      by_contra long
      exact noOverflow ⟨headerSize, bodyLength, known, by omega⟩
    refine ⟨fits, ?_⟩
    intro copies
    rw [lengthSum_of_lt fits] at copies
    have received := int32_le unread.length
    omega

/-- The greatest length with a masking key: fourteen bytes have been received. -/
def greatestLength : Bytes :=
  [0x82, 0xff, 0x7f, 0xff, 0xff, 0xff, 0xff, 0xff, 0xff, 0xff, 1, 2, 3, 4]

/-- The payload would be copied: the sum is taken for a negative number. -/
theorem greatest_length_copied :
    packageLength greatestLength = .known 14 (2 ^ 63 - 1) ∧
      lengthSum 14 (2 ^ 63 - 1) ≤ int32 greatestLength.length ∧
      ¬ CopySafe greatestLength := by
  have known : packageLength greatestLength = .known 14 (2 ^ 63 - 1) := by
    decide +kernel
  refine ⟨known, by decide +kernel, ?_⟩
  intro safe
  exact absurd (safe _ _ known).1 (by decide)

end MyWebSocketSession

end MyBookSources.WebSocket
