import Mathlib.Data.List.Basic
import Mathlib.Data.List.Infix
import Mathlib.Data.Nat.Find

/-! # The segments of a list between occurrences of a pattern

The occurrences are taken from the left, and none of them overlaps the one before. A pattern
that is not empty cuts every list into segments, in one way only.
-/

namespace MyBookSources

structure FirstAt (pattern text : List α) (position : Nat) : Prop where
  found : pattern <+: text.drop position
  first : ∀ earlier, earlier < position → ¬ pattern <+: text.drop earlier

inductive Segments (delimiter : List α) : List α → List (List α) → Prop
  | last {text} : ¬ delimiter <:+: text → Segments delimiter text [text]
  | cut {text position segments} : FirstAt delimiter text position →
      Segments delimiter (text.drop (position + delimiter.length)) segments →
      Segments delimiter text (text.take position :: segments)

theorem isInfix_iff_drop {pattern text : List α} :
    pattern <:+: text ↔ ∃ position, pattern <+: text.drop position := by
  constructor
  · rintro ⟨front, behind, rfl⟩
    refine ⟨front.length, ?_⟩
    rw [List.append_assoc, List.drop_left]
    exact List.prefix_append _ _
  · rintro ⟨position, front⟩
    exact front.isInfix.trans (List.drop_suffix position text).isInfix

namespace FirstAt

variable {pattern text : List α} {position : Nat}

theorem exists_of_isInfix (within : pattern <:+: text) :
    ∃ position, FirstAt pattern text position := by
  classical
  have some_position := isInfix_iff_drop.mp within
  exact ⟨Nat.find some_position, Nat.find_spec some_position,
    fun earlier before => Nat.find_min some_position before⟩

theorem isInfix (first : FirstAt pattern text position) : pattern <:+: text :=
  isInfix_iff_drop.mpr ⟨position, first.found⟩

theorem unique {other : Nat} (left : FirstAt pattern text position)
    (right : FirstAt pattern text other) : position = other := by
  rcases Nat.lt_trichotomy position other with before | same | behind
  · exact absurd left.found (right.first _ before)
  · exact same
  · exact absurd right.found (left.first _ behind)

theorem split (first : FirstAt pattern text position) :
    text.take position ++ (pattern ++ text.drop (position + pattern.length)) = text := by
  rcases first.found with ⟨behind, whole⟩
  have rest : text.drop (position + pattern.length) = behind := by
    rw [← List.drop_drop, ← whole, List.drop_left]
  rw [rest, whole, List.take_append_drop]

theorem length_le (first : FirstAt pattern text position) (filled : pattern ≠ []) :
    position + pattern.length ≤ text.length := by
  have inside := first.found.length_le
  have some_item := List.length_pos_iff.mpr filled
  rw [List.length_drop] at inside
  omega

theorem not_isInfix_take (first : FirstAt pattern text position) (filled : pattern ≠ []) :
    ¬ pattern <:+: text.take position := by
  intro within
  rcases isInfix_iff_drop.mp within with ⟨earlier, front⟩
  have inside := front.length_le
  have some_item := List.length_pos_iff.mpr filled
  rw [List.length_drop, List.length_take] at inside
  rw [List.drop_take] at front
  exact first.first earlier (by omega) (front.trans (List.take_prefix _ _))

end FirstAt

namespace Segments

variable {delimiter text : List α}

theorem exists_segments (filled : delimiter ≠ []) (text : List α) :
    ∃ segments, Segments delimiter text segments := by
  induction size : text.length using Nat.strong_induction_on generalizing text with
  | _ count induction =>
      by_cases within : delimiter <:+: text
      · rcases FirstAt.exists_of_isInfix within with ⟨position, first⟩
        have inside := first.length_le filled
        have some_item := List.length_pos_iff.mpr filled
        have shorter : (text.drop (position + delimiter.length)).length < count := by
          rw [List.length_drop]
          omega
        rcases induction _ shorter _ rfl with ⟨segments, rest⟩
        exact ⟨_, .cut first rest⟩
      · exact ⟨_, .last within⟩

theorem unique {segments others : List (List α)} (left : Segments delimiter text segments)
    (right : Segments delimiter text others) : segments = others := by
  induction left generalizing others with
  | last clean =>
      cases right with
      | last _ => rfl
      | cut first _ => exact absurd first.isInfix clean
  | cut first _ induction =>
      cases right with
      | last clean => exact absurd first.isInfix clean
      | cut other rest =>
          cases first.unique other
          rw [induction rest]

theorem ne_nil {segments : List (List α)} (cut : Segments delimiter text segments) :
    segments ≠ [] := by
  cases cut with
  | last _ => exact List.cons_ne_nil _ _
  | cut _ _ => exact List.cons_ne_nil _ _

/-- The segments and the delimiters between them are the text. -/
theorem intercalate_eq {segments : List (List α)} (cut : Segments delimiter text segments) :
    delimiter.intercalate segments = text := by
  induction cut with
  | last _ => exact List.intercalate_singleton ..
  | cut first rest induction =>
      rw [List.intercalate_cons_of_ne_nil rest.ne_nil, induction, List.append_assoc]
      exact first.split

end Segments

end MyBookSources
