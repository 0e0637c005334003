import MyBookSources.RecvMail.BoundaryTags

/-! # Scanning for boundary tags

`getBoundaryTag` keeps the position of its scan in a `long`. Where a quotation mark is missing,
the position of the next turn is that of `npos` and one more, which is the start of the mail.
-/

namespace MyBookSources.RecvMail.BoundaryScan

open StringUtil (find find_eq_none_iff find_isSome_iff)
open MailHelper (scanTags tagLoop)

/-- What is returned, and what is left in `m_vecBoundary`. -/
def getBoundaryTag (turns : Nat) (strMail : Bytes) : Option (Bool × List Bytes) :=
  if strMail.isEmpty then some (false, [])
  else (tagLoop strMail turns 0 []).map fun vecBoundary =>
    (decide (0 < vecBoundary.length), vecBoundary)

/-! ## Quoted values -/

def tag : Bytes := ascii "boundary=\""

/-- The values in quotation marks behind each `boundary=`, from the front. A tag without a
closing mark has no value, and behind it there is no tag. -/
inductive QuotedValues : (text : Bytes) → (values : List Bytes) → Prop
  | none {text} : ¬ tag <:+: text → QuotedValues text []
  | unclosed {text start} : FirstAt tag text start → 34 ∉ text.drop (start + 10) →
      QuotedValues text []
  | closed {text start value rest values} : FirstAt tag text start →
      text.drop (start + 10) = value ++ 34 :: rest → 34 ∉ value → QuotedValues rest values →
      QuotedValues text (value :: values)

inductive Unclosed : (text : Bytes) → Prop
  | here {text start} : FirstAt tag text start → 34 ∉ text.drop (start + 10) → Unclosed text
  | later {text start value rest} : FirstAt tag text start →
      text.drop (start + 10) = value ++ 34 :: rest → 34 ∉ value → Unclosed rest → Unclosed text

/-- The scan returns with exactly the values. -/
def Collects (strMail : Bytes) : Prop :=
  ∃ values, QuotedValues strMail values ∧ ∀ turns, strMail.length < turns →
    getBoundaryTag turns strMail = some (!values.isEmpty, values)

/-! ## One tag -/

theorem tag_ne_nil : tag ≠ [] := by decide

theorem length_tag : tag.length = 10 := by decide

theorem findFrom_of_firstAt {text : Bytes} {start : Nat} (first : FirstAt tag text start) :
    findFrom tag text 0 = some start := by
  rcases Option.isSome_iff_exists.mp ((find_isSome_iff tag text).mpr first.isInfix) with
    ⟨place, found⟩
  rw [findFrom, if_neg (Nat.not_lt_zero _), List.drop_zero, found,
    (firstAt_of_find found).unique first]
  rfl

theorem scanTags_absent {text : Bytes} (absent : ¬ tag <:+: text) :
    scanTags text 0 = some [] := by
  apply MailHelper.scanTags_none
  rw [findFrom, if_neg (Nat.not_lt_zero _), List.drop_zero]
  exact congrArg _ ((find_eq_none_iff tag text).mpr absent)

theorem scanTags_open {text : Bytes} {start : Nat} (first : FirstAt tag text start)
    (noMark : 34 ∉ text.drop (start + 10)) : scanTags text 0 = none := by
  apply MailHelper.scanTags_unclosed (findFrom_of_firstAt first)
  have mark : ascii "\"" = [34] := by decide
  have inside := first.length_le tag_ne_nil
  rw [length_tag] at inside
  rw [findFrom, if_neg (by omega), mark]
  refine congrArg _ ((find_eq_none_iff _ _).mpr fun within => noMark ?_)
  exact within.subset (by simp)

theorem scanTags_closed {text value rest : Bytes} {start : Nat}
    (first : FirstAt tag text start) (behind : text.drop (start + 10) = value ++ 34 :: rest)
    (noMark : 34 ∉ value) :
    scanTags text 0 = (scanTags rest 0).map (value :: ·) := by
  have whole := first.split
  rw [length_tag, behind] at whole
  rw [← whole]
  exact MailHelper.scanTags_cons (first.not_isInfix_take tag_ne_nil) noMark rest

/-! ## All tags -/

/-- Without a closing mark the scan does not return. -/
theorem scanTags_of_unclosed {text : Bytes} (unclosed : Unclosed text) :
    scanTags text 0 = none := by
  induction unclosed with
  | here first noMark => exact scanTags_open first noMark
  | later first behind noMark _ induction =>
      rw [scanTags_closed first behind noMark, induction]
      rfl

theorem scanTags_quoted (text : Bytes) :
    (∃ values, scanTags text 0 = some values ∧ QuotedValues text values) ∨
      Unclosed text := by
  induction size : text.length using Nat.strong_induction_on generalizing text with
  | _ length induction =>
      by_cases present : tag <:+: text
      · rcases FirstAt.exists_of_isInfix present with ⟨start, first⟩
        by_cases marked : 34 ∈ text.drop (start + 10)
        · rcases List.eq_append_cons_of_mem marked with ⟨value, rest, behind, noMark⟩
          have shorter : rest.length < length := by
            have total := congrArg List.length behind
            rw [List.length_drop, List.length_append, List.length_cons] at total
            omega
          rcases induction _ shorter rest rfl with ⟨values, collected, quoted⟩ | unclosed
          · refine .inl ⟨value :: values, ?_, .closed first behind noMark quoted⟩
            rw [scanTags_closed first behind noMark, collected]
            rfl
          · exact .inr (.later first behind noMark unclosed)
        · exact .inr (.here first marked)
      · exact .inl ⟨[], scanTags_absent present, .none present⟩

/-! ## The loop -/

/-- The scan is the one of the parser of whole mails. -/
theorem getBoundaryTag_eq (helper : MailHelper) (short : helper.strMail.length < 2 ^ 31)
    {turns : Nat} (enough : helper.strMail.length < turns) :
    getBoundaryTag turns helper.strMail =
      helper.getBoundaryTag.map fun (found, after) => (found, after.vecBoundary) := by
  rw [getBoundaryTag, MailHelper.getBoundaryTag, Option.map_map,
    MailHelper.boundaryTags_eq (MailHelper.held_of_short short)]
  by_cases empty : helper.strMail = []
  · rw [empty, scanTags_absent (by decide)]
    rfl
  rw [if_neg (by simpa using empty)]
  cases collected : scanTags helper.strMail 0 with
  | none =>
      have loop : tagLoop helper.strMail turns 0 [] = none :=
        MailHelper.tagLoop_none (MailHelper.held_of_short short) collected turns collected []
      rw [loop]
      rfl
  | some tags =>
      have loop : tagLoop helper.strMail turns 0 [] = some ([] ++ tags) :=
        MailHelper.tagLoop_some (MailHelper.held_of_short short) collected (by omega) []
      rw [loop, List.nil_append]
      cases tags <;> rfl

theorem getBoundaryTag_none {strMail : Bytes} (short : strMail.length < 2 ^ 31)
    (unclosed : Unclosed strMail) (turns : Nat) : getBoundaryTag turns strMail = none := by
  have endless := scanTags_of_unclosed unclosed
  have some_byte : strMail ≠ [] := by
    rintro rfl
    rw [scanTags_absent (by decide)] at endless
    cases endless
  have loop : tagLoop strMail turns 0 [] = none :=
    MailHelper.tagLoop_none (MailHelper.held_of_short short) endless turns endless []
  rw [getBoundaryTag, if_neg (by simpa using some_byte), loop]
  rfl

/-- Where a `long` holds every position, the scan returns with the values exactly if it meets no
tag without a closing mark. -/
theorem collects_iff_closed {strMail : Bytes} (short : strMail.length < 2 ^ 31) :
    Collects strMail ↔ ¬ Unclosed strMail := by
  constructor
  · rintro ⟨values, _, returns⟩ unclosed
    have never := getBoundaryTag_none short unclosed (strMail.length + 1)
    rw [returns _ (Nat.lt_succ_self _)] at never
    cases never
  · intro closed
    rcases scanTags_quoted strMail with ⟨values, collected, quoted⟩ | unclosed
    · refine ⟨values, quoted, fun turns enough => ?_⟩
      have same := getBoundaryTag_eq { MailHelper.create with strMail := strMail } short enough
      rw [same, MailHelper.getBoundaryTag,
        MailHelper.boundaryTags_eq (MailHelper.held_of_short short), collected]
      rfl
    · exact absurd unclosed closed

/-- Two tags, the second with an empty value. -/
theorem closed_tags_collected : Collects (ascii "boundary=\"ab\" boundary=\"\"") := by
  have short : (ascii "boundary=\"ab\" boundary=\"\"").length < 2 ^ 31 := by decide
  rw [collects_iff_closed short]
  intro unclosed
  have never := getBoundaryTag_none short unclosed 40
  exact absurd never (by decide)

/-- A mail of one tag, whose value is never closed. -/
theorem unclosed_tag_never_returns :
    ¬ Collects (ascii "boundary=\"x") ∧
      ∀ turns, getBoundaryTag turns (ascii "boundary=\"x") = none := by
  have front : FirstAt tag (ascii "boundary=\"x") 0 :=
    ⟨by decide, fun earlier before => absurd before (Nat.not_lt_zero _)⟩
  have never := getBoundaryTag_none (by decide) (.here front (by decide))
  refine ⟨?_, never⟩
  rintro ⟨values, _, returns⟩
  have turn := never 12
  rw [returns 12 (by decide)] at turn
  cases turn

example : getBoundaryTag 40 (ascii "boundary=\"ab\" boundary=\"\"") =
    some (true, [ascii "ab", []]) := by decide

end MyBookSources.RecvMail.BoundaryScan
