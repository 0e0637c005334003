import MyBookSources.RecvMail.MailHelper
import MyBookSources.Utils.StringUtilSpec

/-! # The two overloads of `trim`

The overload for wide strings leaves neither of its loops, and cuts one character beside the
place where the other one does.
-/

namespace MyBookSources.RecvMail.Trimming

theorem rtakeWhile_cons {α : Type} (keeps : α → Bool) (first : α) (rest : List α) :
    (first :: rest).rtakeWhile keeps =
      if rest.all keeps then if keeps first then first :: rest else rest
      else rest.rtakeWhile keeps := by
  have same : rest.reverse.all keeps = rest.all keeps := List.all_reverse
  rw [List.rtakeWhile, List.reverse_cons, List.takeWhile_append, List.rtakeWhile]
  have whole : (rest.reverse.takeWhile keeps).length = rest.reverse.length ↔
      rest.all keeps = true := by
    rw [← same, List.all_eq_true, ← List.takeWhile_eq_self_iff]
    constructor
    · intro length
      exact (List.takeWhile_prefix keeps).eq_of_length length
    · intro taken
      rw [taken]
  by_cases all : rest.all keeps = true
  · rw [if_pos (whole.mpr all), if_pos all]
    by_cases front : keeps first = true <;> simp [front]
  · rw [if_neg (fun length => all (whole.mp length)), if_neg all]

variable {α : Type} [DecidableEq α]

def firstLoop (delimiter : α) : (str : List α) → List α
  | [] => []
  | character :: rest =>
      if character = delimiter then firstLoop delimiter rest else character :: rest

/-- The loop from the index in front of this one down. Below zero the unsigned index is far
behind the string, and the loop reads what is not its own. -/
def lastLoop (temp1 : List α) (delimiter : α) : (behind : Nat) → Option (List α)
  | 0 => none
  | i + 1 =>
      if temp1[i]? = some delimiter then lastLoop temp1 delimiter i else some (temp1.take (i + 1))

def trim (str : List α) (delimiter : α) : Option (List α) :=
  let temp1 := firstLoop delimiter str
  if 0 < temp1.length then lastLoop temp1 delimiter temp1.length else some []

/-- The loop goes on behind a character that is kept, and then keeps what is behind that. -/
def firstLoopWide (delimiter : α) : (str temp1 : List α) → List α
  | [], temp1 => temp1
  | character :: rest, temp1 =>
      if character = delimiter then firstLoopWide delimiter rest temp1
      else firstLoopWide delimiter rest rest

/-- The loop goes on behind a hit, and so keeps what is in front of the first other character. -/
def lastLoopWide (temp1 : List α) (delimiter : α) : (behind : Nat) → (temp2 : List α) →
    Option (List α)
  | 0, _ => none
  | i + 1, temp2 =>
      lastLoopWide temp1 delimiter i
        (if temp1[i]? = some delimiter then temp2 else temp1.take i)

def trimWide (str : List α) (delimiter : α) : Option (List α) :=
  let temp1 := firstLoopWide delimiter str []
  if 0 < temp1.length then lastLoopWide temp1 delimiter temp1.length [] else some []

def strip (delimiter : α) (str : List α) : List α :=
  (str.dropWhile (· == delimiter)).rdropWhile (· == delimiter)

/-! ## The overload for strings -/

theorem firstLoop_eq (delimiter : α) (str : List α) :
    firstLoop delimiter str = str.dropWhile (· == delimiter) := by
  induction str with
  | nil => rfl
  | cons character rest induction =>
      rw [firstLoop, List.dropWhile_cons, induction]
      simp only [beq_iff_eq]

theorem lastLoop_eq (temp1 : List α) (delimiter : α) {count : Nat}
    (within : count ≤ temp1.length) :
    lastLoop temp1 delimiter count =
      if (temp1.take count).rdropWhile (· == delimiter) = [] then none
      else some ((temp1.take count).rdropWhile (· == delimiter)) := by
  induction count with
  | zero => rfl
  | succ count induction =>
      have inside : count < temp1.length := within
      rw [lastLoop, List.getElem?_eq_getElem inside, List.take_succ_eq_append_getElem inside]
      by_cases same : temp1[count] = delimiter
      · rw [if_pos (congrArg some same), List.rdropWhile_concat_pos _ _ _ (by simpa using same)]
        exact induction (by omega)
      · have filled := List.append_ne_nil_of_right_ne_nil (temp1.take count)
          (List.cons_ne_nil temp1[count] [])
        rw [if_neg (fun both => same (Option.some.inj both)),
          List.rdropWhile_concat_neg _ _ _ (by simpa using same), if_neg filled]

theorem trim_strips (str : List α) (delimiter : α) :
    trim str delimiter = some (strip delimiter str) := by
  rw [trim, firstLoop_eq, strip]
  by_cases empty : str.dropWhile (· == delimiter) = []
  · rw [empty]
    rfl
  · have kept : (str.dropWhile (· == delimiter)).rdropWhile (· == delimiter) ≠ [] := by
      intro nothing
      exact empty (List.dropWhile_eq_nil_iff.mpr ((StringUtil.strip_eq_nil_iff _ _).mp nothing))
    rw [if_pos (List.length_pos_iff.mpr empty), lastLoop_eq _ _ (Nat.le_refl _), List.take_length,
      if_neg kept]

theorem strip_eq_nil_iff (delimiter : α) (str : List α) :
    strip delimiter str = [] ↔ ∀ character ∈ str, character = delimiter := by
  rw [strip, StringUtil.strip_eq_nil_iff]
  simp only [beq_iff_eq]

/-! ## The overload for wide strings -/

theorem firstLoopWide_eq (delimiter : α) (str temp1 : List α) :
    firstLoopWide delimiter str temp1 =
      if str.all (· == delimiter) then temp1 else str.rtakeWhile (· == delimiter) := by
  induction str generalizing temp1 with
  | nil => rfl
  | cons character rest induction =>
      rw [firstLoopWide, induction, induction, rtakeWhile_cons, List.all_cons]
      by_cases same : character = delimiter
      · rw [if_pos same, beq_iff_eq.mpr same, Bool.true_and]
        split
        · rfl
        · rfl
      · rw [if_neg same, beq_false_of_ne same]
        rfl

theorem lastLoopWide_none (temp1 : List α) (delimiter : α) (behind : Nat) (temp2 : List α) :
    lastLoopWide temp1 delimiter behind temp2 = none := by
  induction behind generalizing temp2 with
  | zero => rfl
  | succ i induction => exact induction _

theorem trimWide_eq (str : List α) (delimiter : α) :
    trimWide str delimiter =
      if str.all (· == delimiter) then some []
      else if str.getLast? = some delimiter then none
      else some [] := by
  rw [trimWide, firstLoopWide_eq, lastLoopWide_none]
  by_cases all : str.all (· == delimiter) = true
  · rw [if_pos all, if_pos all]
    rfl
  · rw [if_neg all, if_neg all]
    refine if_congr ?_ rfl rfl
    rcases List.eq_nil_or_concat str with rfl | ⟨front, last, rfl⟩
    · exact absurd rfl all
    · rw [List.concat_eq_append, List.rtakeWhile_concat, List.getLast?_concat]
      by_cases same : last = delimiter <;> simp [same]

/-- The two overloads are those that the parser of whole mails uses. -/
theorem trims_eq (text : Bytes) (wide : Wide) :
    trim text 32 = some (RecvMail.trim text) ∧ trimWide wide 32 = RecvMail.trimWide wide := by
  constructor
  · rw [trim_strips]
    rfl
  · rw [trimWide_eq]
    rfl

/-! ## Where they agree -/

/-- The wide string is stripped, and so is every string of narrow characters that it stands
for. -/
structure Agrees (wide : List α) (delimiter : α) : Prop where
  strips : trimWide wide delimiter = some (strip delimiter wide)
  alike : ∀ (widen : Byte → α) (str : Bytes) (narrow : Byte), Function.Injective widen →
    wide = str.map widen → delimiter = widen narrow →
    trim str narrow = some (strip narrow str) ∧
      trimWide wide delimiter = (trim str narrow).map (List.map widen)

/-- They agree exactly on the strings of nothing but delimiters. -/
theorem trims_agree_iff (wide : List α) (delimiter : α) :
    Agrees wide delimiter ↔ ∀ character ∈ wide, character = delimiter := by
  constructor
  · intro agrees
    rw [← strip_eq_nil_iff]
    have own := agrees.strips
    rw [trimWide_eq] at own
    split at own
    · exact (Option.some.inj own).symm
    · split at own
      · cases own
      · exact (Option.some.inj own).symm
  · intro all
    have wideAll : wide.all (· == delimiter) = true := by
      rw [List.all_eq_true]
      intro character member
      rw [beq_iff_eq]
      exact all character member
    have nothing : trimWide wide delimiter = some [] := by rw [trimWide_eq, if_pos wideAll]
    constructor
    · rw [nothing, (strip_eq_nil_iff delimiter wide).mpr all]
    · rintro widen str narrow injective rfl rfl
      have narrowAll : ∀ character ∈ str, character = narrow := fun character member =>
        injective (all _ (List.mem_map_of_mem member))
      refine ⟨trim_strips str narrow, ?_⟩
      rw [nothing, trim_strips, (strip_eq_nil_iff narrow str).mpr narrowAll]
      rfl

/-- A letter is lost, and behind one blank the loop does not end. -/
theorem wide_letter_lost :
    (¬ Agrees ([97] : Wide) 32 ∧ trimWide ([97] : Wide) 32 = some [] ∧
      trim ([97] : Bytes) 32 = some [97]) ∧
    ¬ Agrees ([97, 32] : Wide) 32 ∧ trimWide ([97, 32] : Wide) 32 = none := by
  have lost : trimWide ([97] : Wide) 32 = some [] := by decide
  have endless : trimWide ([97, 32] : Wide) 32 = none := by decide
  refine ⟨⟨fun agrees => ?_, lost, by decide⟩, fun agrees => ?_, endless⟩
  · have own := agrees.strips
    rw [lost] at own
    revert own
    decide
  · have own := agrees.strips
    rw [endless] at own
    cases own

end MyBookSources.RecvMail.Trimming
