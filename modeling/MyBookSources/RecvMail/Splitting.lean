import MyBookSources.Foundation.MailText
import MyBookSources.RecvMail.MailHelper
import MyBookSources.Utils.StringUtilSpec

/-! # Splitting at delimiters

Where a delimiter is found in a text of lines, and what `splitString` leaves between its
occurrences.
-/

namespace MyBookSources.RecvMail

open StringUtil (find find_isSome_iff find_eq_none_iff find_of_isPrefix find_cons_of_not_isPrefix
  find_split infix_append_cons)
open MailText (crlf lines)

/-! ## Occurrences -/

theorem contains_iff (text pattern : Bytes) : contains text pattern = true ↔ pattern <:+: text :=
  find_isSome_iff pattern text

def Ended (text : Bytes) : Prop := text = [] ∨ ∃ front, text = front ++ [10]

theorem Ended.infix_append {pattern left right : Bytes} (ended : Ended left)
    (noLf : 10 ∉ pattern) (within : pattern <:+: left ++ right) :
    pattern <:+: left ∨ pattern <:+: right := by
  rcases ended with rfl | ⟨front, rfl⟩
  · exact .inr within
  · rw [List.append_assoc] at within
    rcases infix_append_cons noLf within with inFront | inRight
    · exact .inl (inFront.trans (List.prefix_append _ _).isInfix)
    · exact .inr inRight

theorem Ended.append {left right : Bytes} (leftEnded : Ended left) (ended : Ended right) :
    Ended (left ++ right) := by
  rcases ended with rfl | ⟨front, rfl⟩
  · rwa [List.append_nil]
  · exact .inr ⟨left ++ front, by simp⟩

theorem find_delimiter {delimiter text : Bytes} (noLf : 10 ∉ delimiter) (ended : Ended text)
    (clean : ¬ delimiter <:+: text) (rest : Bytes) :
    find delimiter (text ++ (delimiter ++ rest)) = some text.length := by
  induction text with
  | nil =>
      rw [List.nil_append]
      have front : delimiter.isPrefixOf (delimiter ++ rest) = true :=
        List.isPrefixOf_iff_prefix.mpr (List.prefix_append _ _)
      cases whole : delimiter ++ rest with
      | nil =>
          have empty := (List.append_eq_nil_iff.mp whole).1
          rw [empty]
          rfl
      | cons byte later =>
          rw [whole] at front
          rw [find, if_pos front]
          rfl
  | cons byte text induction =>
      have later : Ended text := by
        rcases ended with empty | ⟨front, same⟩
        · cases empty
        · cases front with
          | nil =>
              rw [List.nil_append, List.cons.injEq] at same
              exact .inl same.2
          | cons first front =>
              rw [List.cons_append, List.cons.injEq] at same
              exact .inr ⟨front, same.2⟩
      have other : ¬ delimiter.isPrefixOf (byte :: (text ++ (delimiter ++ rest))) = true := by
        rw [List.isPrefixOf_iff_prefix]
        intro front
        have own : byte :: text <+: byte :: (text ++ (delimiter ++ rest)) :=
          ⟨delimiter ++ rest, by simp⟩
        rcases Nat.le_total delimiter.length (byte :: text).length with short | long
        · exact clean (List.prefix_of_prefix_length_le front own short).isInfix
        · have inside := List.prefix_of_prefix_length_le own front long
          rcases ended with empty | ⟨front, same⟩
          · cases empty
          · exact noLf (inside.subset (by rw [same]; simp))
      have cleanLater : ¬ delimiter <:+: text := fun within =>
        clean (List.infix_cons_iff.mpr (.inr within))
      rw [List.cons_append, find, if_neg other, induction later cleanLater]
      simp

/-! ## Pieces -/

theorem splitAll_of_clean {delimiter text : Bytes} (clean : ¬ delimiter <:+: text) :
    splitAll delimiter text = [text] := by
  have absent := (find_eq_none_iff delimiter text).mpr clean
  rw [splitAll]
  split
  · next found => simp [absent] at found
  · rfl

theorem splitAll_of_find {delimiter text : Bytes} (some_byte : delimiter ≠ []) {pos : Nat}
    (found : find delimiter text = some pos) :
    splitAll delimiter text =
      text.take pos :: splitAll delimiter (text.drop (pos + delimiter.length)) := by
  rw [splitAll]
  split
  · next other same =>
      rw [found] at same
      cases same
      rw [if_pos (List.length_pos_iff.mpr some_byte)]
  · next none => simp [found] at none

theorem splitAll_delimiter {delimiter text : Bytes} (some_byte : delimiter ≠ [])
    (noLf : 10 ∉ delimiter) (ended : Ended text) (clean : ¬ delimiter <:+: text) (rest : Bytes) :
    splitAll delimiter (text ++ (delimiter ++ rest)) = text :: splitAll delimiter rest := by
  rw [splitAll_of_find some_byte (find_delimiter noLf ended clean rest), List.take_left']
  · rw [← List.append_assoc, List.drop_left']
    rw [List.length_append]
  · rfl

/-! ## Lines -/

theorem ascii_crlf : ascii "\r\n" = crlf := by decide

theorem ascii_blank_line : ascii "\r\n\r\n" = crlf ++ crlf := by decide

theorem lines_of_clean {text : Bytes} (clean : ¬ crlf <:+: text) : lines text = [text] := by
  induction text with
  | nil => rfl
  | cons byte rest induction =>
      have later : ¬ crlf <:+: rest := fun within => clean (List.infix_cons_iff.mpr (.inr within))
      rw [MailText.lines_cons, induction later, MailText.consByte, if_neg]
      rintro ⟨rfl, second⟩
      cases rest with
      | nil => cases second
      | cons next rest =>
          cases second
          exact clean ⟨[], rest, rfl⟩

/-- Splitting at line ends gives the lines. -/
theorem splitAll_crlf (text : Bytes) : splitAll crlf text = lines text := by
  induction size : text.length using Nat.strong_induction_on generalizing text with
  | _ count induction =>
      cases found : find crlf text with
      | none =>
          have clean := (find_eq_none_iff crlf text).mp found
          rw [splitAll_of_clean clean, lines_of_clean clean]
      | some pos =>
          have within := StringUtil.find_le found
          have front : ¬ crlf <:+: text.take pos := by
            rw [← find_eq_none_iff]
            exact StringUtil.find_take found (Nat.lt_add_of_pos_right (by decide))
          have shorter : (text.drop (pos + crlf.length)).length < count := by
            rw [List.length_drop, ← size]
            have two : crlf.length = 2 := rfl
            omega
          rw [splitAll_of_find (by decide) found, induction _ shorter _ rfl]
          conv_rhs => rw [← find_split found, ← List.append_assoc, MailText.lines_append,
            lines_of_clean front]
          rfl

theorem lines_tail_subset (byte : Byte) (text : Bytes) :
    (lines text).tail ⊆ (lines (byte :: text)).tail := by
  rcases List.exists_cons_of_ne_nil (MailText.lines_ne_nil text) with ⟨line, rest, same⟩
  rw [MailText.lines_cons, same, MailText.consByte]
  split
  · exact List.subset_cons_self _ _
  · exact List.Subset.refl _

theorem lines_tail_drop_subset (count : Nat) (text : Bytes) :
    (lines (text.drop count)).tail ⊆ (lines text).tail := by
  induction count generalizing text with
  | zero => exact List.Subset.refl _
  | succ count induction =>
      cases text with
      | nil => exact List.Subset.refl _
      | cons byte text => exact List.Subset.trans (induction text) (lines_tail_subset byte text)

theorem find_blank_line {text : Bytes} (filled : [] ∉ (lines text).tail) (rest : Bytes) :
    find (crlf ++ crlf) (text ++ (crlf ++ crlf ++ rest)) = some text.length := by
  induction text with
  | nil => exact find_of_isPrefix (List.prefix_append _ _)
  | cons byte text induction =>
      have other : ¬ crlf ++ crlf <+: byte :: (text ++ (crlf ++ crlf ++ rest)) := by
        intro front
        replace front : [13, 10, 13, 10] <+: byte :: (text ++ (crlf ++ crlf ++ rest)) := front
        rw [List.cons_prefix_cons] at front
        rcases front with ⟨rfl, front⟩
        -- the line end is in the text, and behind it comes another or the end of the text
        cases text with
        | nil => exact absurd (List.cons_prefix_cons.mp front).1 (by decide)
        | cons next text =>
            rw [List.cons_append, List.cons_prefix_cons] at front
            rcases front with ⟨rfl, front⟩
            have empty : lines (13 :: 10 :: text) = [] :: lines text := MailText.lines_crlf text
            rw [empty, List.tail_cons] at filled
            cases text with
            | nil => exact filled List.mem_cons_self
            | cons third text =>
                rw [List.cons_append, List.cons_prefix_cons] at front
                rcases front with ⟨rfl, front⟩
                cases text with
                | nil => exact absurd (List.cons_prefix_cons.mp front).1 (by decide)
                | cons fourth text =>
                    rw [List.cons_append, List.cons_prefix_cons] at front
                    rcases front with ⟨rfl, _⟩
                    apply filled
                    change [] ∈ lines (crlf ++ text)
                    rw [MailText.lines_crlf]
                    exact List.mem_cons_self
      rw [List.cons_append, find_cons_of_not_isPrefix other,
        induction fun member => filled (lines_tail_subset byte text member)]
      rfl

end MyBookSources.RecvMail
