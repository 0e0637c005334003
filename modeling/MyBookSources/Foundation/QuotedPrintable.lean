import MyBookSources.Foundation.MailText

/-! # The quoted-printable encoding

A byte is written as itself or as an equals sign with two hexadecimal digits. White space at
the end of a line is not part of the text, and an equals sign at the end joins the line to
the next one. An equals sign that is neither is read as itself.
-/

namespace MyBookSources.QuotedPrintable

open MailText

def hexValue (digit : Byte) : Option Byte :=
  if 48 ≤ digit ∧ digit ≤ 57 then some (digit - 48)
  else if 65 ≤ digit ∧ digit ≤ 70 then some (digit - 55)
  else if 97 ≤ digit ∧ digit ≤ 102 then some (digit - 87)
  else none

def hexPair (high low : Byte) : Option Byte :=
  match hexValue high, hexValue low with
  | some high, some low => some (high * 16 + low)
  | _, _ => none

/-- The encodings of a text: an equals sign is always escaped, any other byte can be, and a
line can be broken between any two of them. -/
inductive Encodes : Bytes → Bytes → Prop
  | nil : Encodes [] []
  | literal {byte : Byte} {text code : Bytes} : byte ≠ 61 → Encodes text code →
      Encodes (byte :: text) (byte :: code)
  | escaped {byte high low : Byte} {text code : Bytes} : hexPair high low = some byte →
      Encodes text code → Encodes (byte :: text) (61 :: high :: low :: code)
  | softBreak {text code : Bytes} : Encodes text code →
      Encodes text (61 :: 13 :: 10 :: code)

def decodeText : Bytes → Bytes
  | [] => []
  | [byte] => [byte]
  | [byte, next] => [byte, next]
  | byte :: high :: low :: rest =>
      if byte = 61 then
        match hexPair high low with
        | some value => value :: decodeText rest
        | none => byte :: decodeText (high :: low :: rest)
      else byte :: decodeText (high :: low :: rest)

example : decodeText (ascii "1=2B1=3d2=") = ascii "1+1=2=" := by decide

def whiteSpace (byte : Byte) : Bool := byte == 32 || byte == 9

def decodeLine (line : Bytes) : Bytes × Bool :=
  let text := line.rdropWhile whiteSpace
  if text.getLast? = some 61 then (decodeText text.dropLast, false) else (decodeText text, true)

theorem noZero_of_hexPair {high low byte : Byte} (pair : hexPair high low = some byte) :
    high ≠ 0 ∧ low ≠ 0 := by
  constructor
  · rintro rfl
    cases pair
  · rintro rfl
    unfold hexPair at pair
    split at pair
    · next high low one two => cases two
    · cases pair

theorem Encodes.noZero {text code : Bytes} (encodes : Encodes text code) (noZero : 0 ∉ text) :
    0 ∉ code := by
  induction encodes with
  | nil => exact noZero
  | literal other encodes induction =>
      rw [List.mem_cons, not_or] at noZero ⊢
      exact ⟨noZero.1, induction noZero.2⟩
  | escaped pair encodes induction =>
      rw [List.mem_cons, not_or] at noZero
      have digits := noZero_of_hexPair pair
      simp only [List.mem_cons, not_or]
      exact ⟨by decide, digits.1.symm, digits.2.symm, induction noZero.2⟩
  | softBreak encodes induction =>
      simp only [List.mem_cons, not_or]
      exact ⟨by decide, by decide, by decide, induction noZero⟩

/-- No equals sign in the text has two digits behind it. -/
def Unescaped (text : Bytes) : Prop :=
  ∀ front high low rest, text = front ++ 61 :: high :: low :: rest → hexPair high low = none

/-- A line that stands for itself. -/
structure Literal (line : Bytes) : Prop where
  ending : ∀ last ∈ line.getLast?, whiteSpace last = false ∧ last ≠ 61
  unescaped : Unescaped line

theorem decodeText_cons {byte : Byte} {rest : Bytes}
    (literal : byte = 61 → ∀ high low more, rest = high :: low :: more →
      hexPair high low = none) :
    decodeText (byte :: rest) = byte :: decodeText rest := by
  match rest with
  | [] => rfl
  | [next] => rfl
  | high :: low :: more =>
      rw [decodeText]
      split
      · next sign => rw [literal sign high low more rfl]
      · rfl

theorem length_decodeText_le (text : Bytes) : (decodeText text).length ≤ text.length := by
  induction text using decodeText.induct with
  | case1 => exact Nat.le_refl _
  | case2 byte => exact Nat.le_refl _
  | case3 byte next => exact Nat.le_refl _
  | case4 high low rest value escape induction =>
      rw [decodeText, if_pos rfl, escape]
      simp only [List.length_cons]
      omega
  | case5 high low rest escape induction =>
      rw [decodeText, if_pos rfl, escape]
      simp only [List.length_cons] at induction ⊢
      omega
  | case6 byte high low rest other induction =>
      rw [decodeText, if_neg other]
      simp only [List.length_cons] at induction ⊢
      omega

theorem unescaped_cons {byte : Byte} {text : Bytes}
    (literal : byte = 61 → ∀ high low more, text = high :: low :: more →
      hexPair high low = none) :
    Unescaped (byte :: text) ↔ Unescaped text := by
  constructor
  · intro unescaped front high low rest same
    exact unescaped (byte :: front) high low rest (by rw [same]; rfl)
  · intro unescaped front high low rest same
    cases front with
    | nil =>
        rw [List.nil_append, List.cons.injEq] at same
        exact literal same.1 high low rest same.2
    | cons first front =>
        rw [List.cons_append, List.cons.injEq] at same
        exact unescaped front high low rest same.2

theorem decodeText_eq_iff (text : Bytes) : decodeText text = text ↔ Unescaped text := by
  induction text using decodeText.induct with
  | case1 =>
      simp [decodeText, Unescaped]
  | case2 byte =>
      constructor
      · intro _ front high low rest same
        have length := congrArg List.length same
        simp only [List.length_cons, List.length_nil, List.length_append] at length
        omega
      · intro _
        rfl
  | case3 byte next =>
      constructor
      · intro _ front high low rest same
        have length := congrArg List.length same
        simp only [List.length_cons, List.length_nil, List.length_append] at length
        omega
      · intro _
        rfl
  | case4 high low rest value escape induction =>
      rw [decodeText, if_pos rfl, escape]
      constructor
      · intro same
        have short := length_decodeText_le rest
        have length := congrArg List.length same
        simp only [List.length_cons] at length
        omega
      · intro unescaped
        rw [unescaped [] high low rest rfl] at escape
        cases escape
  | case5 high low rest escape induction =>
      have literal : ∀ first second more, high :: low :: rest = first :: second :: more →
          hexPair first second = none := by
        rintro first second more same
        cases same
        exact escape
      rw [decodeText_cons (fun _ => literal), unescaped_cons (fun _ => literal), ← induction]
      simp
  | case6 byte high low rest other induction =>
      rw [decodeText_cons (fun same => absurd same other),
        unescaped_cons (fun same => absurd same other), ← induction]
      simp

theorem decodeText_shrinks (text : Bytes) :
    decodeText text = text ∨ (decodeText text).length < text.length := by
  induction text using decodeText.induct with
  | case1 => exact .inl rfl
  | case2 byte => exact .inl rfl
  | case3 byte next => exact .inl rfl
  | case4 high low rest value escape _ =>
      right
      have short := length_decodeText_le rest
      rw [decodeText, if_pos rfl, escape]
      simp only [List.length_cons]
      omega
  | case5 high low rest escape induction =>
      rw [decodeText, if_pos rfl, escape]
      rcases induction with same | less
      · exact .inl (congrArg _ same)
      · exact .inr (Nat.succ_lt_succ less)
  | case6 byte high low rest other induction =>
      rw [decodeText, if_neg other]
      rcases induction with same | less
      · exact .inl (congrArg _ same)
      · exact .inr (Nat.succ_lt_succ less)

/-- A byte that is neither a digit nor an equals sign separates what is read. -/
theorem decodeText_append {byte : Byte} (noSign : byte ≠ 61) (noDigit : hexValue byte = none)
    (front rest : Bytes) :
    decodeText (front ++ byte :: rest) = decodeText front ++ byte :: decodeText rest := by
  have own : decodeText (byte :: rest) = byte :: decodeText rest :=
    decodeText_cons (fun same => absurd same noSign)
  have noLow : ∀ high, hexPair high byte = none := by
    intro high
    rw [hexPair]
    rw [noDigit]
    split
    · next same => cases same
    · rfl
  have noHigh : ∀ low, hexPair byte low = none := by
    intro low
    rw [hexPair]
    rw [noDigit]
  induction front using decodeText.induct with
  | case1 => exact own
  | case2 first =>
      have literal : ∀ high low more, byte :: rest = high :: low :: more →
          hexPair high low = none := by
        rintro high low more same
        cases same
        exact noHigh low
      change decodeText (first :: byte :: rest) = _
      rw [decodeText_cons (fun _ => literal), own]
      rfl
  | case3 first second =>
      have beforeByte : ∀ high low more, byte :: rest = high :: low :: more →
          hexPair high low = none := by
        rintro high low more same
        cases same
        exact noHigh low
      have beforeSecond : ∀ high low more, second :: byte :: rest = high :: low :: more →
          hexPair high low = none := by
        rintro high low more same
        cases same
        exact noLow second
      change decodeText (first :: second :: byte :: rest) = _
      rw [decodeText_cons (fun _ => beforeSecond), decodeText_cons (fun _ => beforeByte), own]
      rfl
  | case4 high low more value escape induction =>
      simp only [List.cons_append] at induction ⊢
      rw [decodeText, if_pos rfl, escape, decodeText, if_pos rfl, escape]
      simp only [induction, List.cons_append]
  | case5 high low more escape induction =>
      simp only [List.cons_append] at induction ⊢
      rw [decodeText, if_pos rfl, escape, decodeText, if_pos rfl, escape]
      simp only [induction, List.cons_append]
  | case6 first high low more other induction =>
      simp only [List.cons_append] at induction ⊢
      rw [decodeText, if_neg other, decodeText, if_neg other, induction, List.cons_append]

/-! ## Lines -/

theorem rdropWhile_eq_self_iff (line : Bytes) :
    line.rdropWhile whiteSpace = line ↔ ∀ last ∈ line.getLast?, whiteSpace last = false := by
  rw [List.rdropWhile_eq_self_iff]
  constructor
  · intro ending last member
    rcases List.mem_getLast?_eq_getLast member with ⟨some_byte, rfl⟩
    simpa using ending some_byte
  · intro ending some_byte
    have last := ending _ (List.getLast?_eq_some_getLast some_byte)
    simp [last]

/-- A line stands for itself, or is read as less. -/
theorem decodeLine_cases (line : Bytes) :
    (Literal line ∧ decodeLine line = (line, true)) ∨
      (¬ Literal line ∧ (decodeLine line).1.length < line.length) := by
  have front : line.rdropWhile whiteSpace <+: line := List.rdropWhile_prefix whiteSpace line
  by_cases bare : line.rdropWhile whiteSpace = line
  · have spaces := (rdropWhile_eq_self_iff line).mp bare
    unfold decodeLine
    rw [bare]
    dsimp only
    by_cases joined : line.getLast? = some 61
    · right
      constructor
      · intro literal
        exact (literal.ending 61 joined).2 rfl
      · have some_byte : 0 < line.length := by
          apply List.length_pos_iff.mpr
          rintro rfl
          cases joined
        have short := length_decodeText_le line.dropLast
        rw [List.length_dropLast] at short
        rw [if_pos joined]
        change (decodeText line.dropLast).length < line.length
        omega
    · rw [if_neg joined]
      by_cases unescaped : Unescaped line
      · left
        rw [(decodeText_eq_iff line).mpr unescaped]
        refine ⟨⟨?_, unescaped⟩, rfl⟩
        intro last member
        exact ⟨spaces last member, fun same => joined (same ▸ member)⟩
      · right
        exact ⟨fun literal => unescaped literal.unescaped,
          (decodeText_shrinks line).resolve_left
            (fun same => unescaped ((decodeText_eq_iff line).mp same))⟩
  · right
    constructor
    · intro literal
      exact bare ((rdropWhile_eq_self_iff line).mpr fun last member =>
        (literal.ending last member).1)
    · have shorter : (line.rdropWhile whiteSpace).length < line.length := by
        rcases Nat.lt_or_eq_of_le front.length_le with less | same
        · exact less
        · exact absurd (front.eq_of_length same) bare
      have whole := length_decodeText_le (line.rdropWhile whiteSpace)
      have part := length_decodeText_le (line.rdropWhile whiteSpace).dropLast
      rw [List.length_dropLast] at part
      unfold decodeLine
      dsimp only
      split
      · change (decodeText _).length < line.length
        omega
      · change (decodeText _).length < line.length
        omega

theorem decodeLine_shrinks : Shrinks decodeLine := by
  intro line
  rcases decodeLine_cases line with ⟨_, same⟩ | ⟨_, less⟩
  · exact .inl same
  · exact .inr less

end MyBookSources.QuotedPrintable
