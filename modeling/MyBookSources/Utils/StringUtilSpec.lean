import MyBookSources.Utils.StringUtil
import Mathlib.Data.List.DropRight

/-! # What the string utilities do

Where `find` finds a pattern, the pieces that `Split` makes of a text, the two parts that `Cut`
leaves, and what `trim` takes away.
-/

namespace MyBookSources.StringUtil

/-! ## Occurrences -/

theorem find_isSome_iff (pattern text : Bytes) :
    (find pattern text).isSome = true ↔ pattern <:+: text := by
  induction text with
  | nil =>
      simp only [find, List.infix_nil]
      split
      · next empty => simp [List.isEmpty_iff.mp empty]
      · next filled => simpa [List.isEmpty_iff] using filled
  | cons byte rest induction =>
      rw [find, List.infix_cons_iff]
      split
      · next front =>
          simp [List.isPrefixOf_iff_prefix.mp front]
      · next other =>
          rw [List.isPrefixOf_iff_prefix] at other
          rw [Option.isSome_map, induction]
          simp [other]

theorem find_eq_none_iff (pattern text : Bytes) :
    find pattern text = none ↔ ¬ pattern <:+: text := by
  rw [← find_isSome_iff, Bool.not_eq_true, Option.isSome_eq_false_iff, Option.isNone_iff_eq_none]

theorem find_of_isPrefix {pattern text : Bytes} (front : pattern <+: text) :
    find pattern text = some 0 := by
  cases text with
  | nil =>
      rw [List.prefix_nil.mp front]
      rfl
  | cons byte rest => rw [find, if_pos (List.isPrefixOf_iff_prefix.mpr front)]

theorem find_cons_of_not_isPrefix {pattern rest : Bytes} {byte : Byte}
    (other : ¬ pattern <+: byte :: rest) :
    find pattern (byte :: rest) = (find pattern rest).map (· + 1) := by
  rw [find, if_neg]
  rwa [List.isPrefixOf_iff_prefix]

theorem find_append_of_infix {pattern front : Bytes} (within : pattern <:+: front)
    (rest : Bytes) : find pattern (front ++ rest) = find pattern front := by
  rcases Option.isSome_iff_exists.mp ((find_isSome_iff pattern front).mpr within) with ⟨pos, found⟩
  rw [found, StringUtil.find_append found]

theorem find_split {pattern text : Bytes} {pos : Nat} (found : find pattern text = some pos) :
    text.take pos ++ (pattern ++ text.drop (pos + pattern.length)) = text := by
  induction text generalizing pos with
  | nil =>
      rw [find] at found
      split at found
      · next empty => simp [List.isEmpty_iff.mp empty]
      · cases found
  | cons byte rest induction =>
      by_cases front : pattern <+: byte :: rest
      · rw [find_of_isPrefix front] at found
        cases found
        rcases front with ⟨later, whole⟩
        rw [List.take_zero, List.nil_append, Nat.zero_add, ← whole, List.drop_left]
      · rw [find_cons_of_not_isPrefix front] at found
        rcases Option.map_eq_some_iff.mp found with ⟨back, foundRest, rfl⟩
        rw [List.take_succ_cons, Nat.add_right_comm, List.drop_succ_cons, List.cons_append,
          induction foundRest]

theorem infix_append_cons {pattern : Bytes} {byte : Byte} (foreign : byte ∉ pattern)
    {left right : Bytes} (within : pattern <:+: left ++ byte :: right) :
    pattern <:+: left ∨ pattern <:+: right := by
  induction left with
  | nil =>
      rw [List.nil_append, List.infix_cons_iff] at within
      rcases within with front | later
      · cases pattern with
        | nil => exact .inl (List.nil_infix)
        | cons first pattern =>
            rw [List.cons_prefix_cons] at front
            exact absurd (by rw [front.1]; exact List.mem_cons_self) foreign
      · exact .inr later
  | cons first left induction =>
      rw [List.cons_append, List.infix_cons_iff] at within
      rcases within with front | later
      · left
        have short : pattern.length ≤ (first :: left).length := by
          by_contra long
          have inside : first :: left ++ [byte] <+: pattern := by
            apply List.prefix_of_prefix_length_le _ front
            · simp only [List.length_append, List.length_cons, List.length_nil] at long ⊢
              omega
            · exact ⟨right, by simp⟩
          exact foreign (inside.subset (by simp))
        have own := List.prefix_of_prefix_length_le front
          (List.prefix_append (first :: left) (byte :: right)) short
        exact own.isInfix
      · rcases induction later with inLeft | inRight
        · exact .inl (List.infix_cons_iff.mpr (.inr inLeft))
        · exact .inr inRight

theorem find_unbordered {first : Byte} {tail text : Bytes} (once : first ∉ tail)
    (clean : ¬ first :: tail <:+: text) (rest : Bytes) :
    find (first :: tail) (text ++ (first :: tail ++ rest)) = some text.length := by
  induction text with
  | nil =>
      have front : (first :: tail).isPrefixOf (first :: tail ++ rest) = true :=
        List.isPrefixOf_iff_prefix.mpr (List.prefix_append _ _)
      rw [List.nil_append, List.cons_append, find, ← List.cons_append, if_pos front]
      rfl
  | cons byte text induction =>
      have later : ¬ first :: tail <:+: text := fun within =>
        clean (List.infix_cons_iff.mpr (.inr within))
      have other : ¬ (first :: tail).isPrefixOf (byte :: (text ++ (first :: tail ++ rest))) =
          true := by
        rw [List.isPrefixOf_iff_prefix]
        intro front
        have own : byte :: text <+: byte :: (text ++ (first :: tail ++ rest)) :=
          List.prefix_append (byte :: text) _
        rcases Nat.le_total (first :: tail).length (byte :: text).length with short | long
        · exact clean (List.prefix_of_prefix_length_le front own short).isInfix
        · -- the pattern would begin again in itself
          rcases List.prefix_of_prefix_length_le own front long with ⟨more, whole⟩
          cases more with
          | nil =>
              rw [List.append_nil] at whole
              rw [← whole] at clean
              exact clean (List.infix_refl _)
          | cons next more =>
              rcases front with ⟨behind, front⟩
              have shifted : byte :: text ++ (next :: more ++ behind) =
                  byte :: text ++ (first :: tail ++ rest) := by
                rw [← List.append_assoc, whole, front]
                rfl
              have same := List.append_cancel_left shifted
              rw [List.cons_append, List.cons_append, List.cons.injEq] at same
              rw [List.cons_append, List.cons.injEq] at whole
              apply once
              rw [← whole.2, ← same.1]
              simp
      rw [List.cons_append, find, if_neg other, induction later]
      rfl

/-! ## Pieces -/

/-- Empty pieces are left out. -/
theorem splitLoop_pieces {first : Byte} {tail : Bytes} (once : first ∉ tail) {pieces : List Bytes}
    (clean : ∀ piece ∈ pieces, ¬ first :: tail <:+: piece) {fuel : Nat}
    (enough : (pieces.flatMap (· ++ first :: tail)).length < fuel) :
    splitLoop (first :: tail) fuel (pieces.flatMap (· ++ first :: tail)) =
      some (pieces.filter fun piece => !piece.isEmpty) := by
  induction pieces generalizing fuel with
  | nil =>
      cases fuel with
      | zero => cases enough
      | succ fuel => rfl
  | cons piece pieces induction =>
      cases fuel with
      | zero => cases enough
      | succ fuel =>
          rcases List.forall_mem_cons.mp clean with ⟨cleanPiece, cleanPieces⟩
          rw [List.flatMap_cons, List.append_assoc] at enough ⊢
          rw [splitLoop, find_unbordered once cleanPiece]
          dsimp only
          have behind : (piece ++ (first :: tail ++ pieces.flatMap (· ++ first :: tail))).drop
              (piece.length + (first :: tail).length) =
                pieces.flatMap (· ++ first :: tail) := by
            rw [← List.append_assoc, ← List.length_append, List.drop_left]
          have shorter : (pieces.flatMap (· ++ first :: tail)).length < fuel := by
            simp only [List.length_append, List.length_cons] at enough
            omega
          rw [behind, induction cleanPieces shorter, List.take_left]
          cases piece with
          | nil => rfl
          | cons byte piece => rfl

theorem Split_pieces {first : Byte} {tail : Bytes} (once : first ∉ tail) {pieces : List Bytes}
    (clean : ∀ piece ∈ pieces, ¬ first :: tail <:+: piece) :
    Split (pieces.flatMap (· ++ first :: tail)) (first :: tail) =
      some (pieces.filter fun piece => !piece.isEmpty) := by
  rw [Split]
  split
  · next empty =>
    cases pieces with
    | nil => rfl
    | cons piece pieces => simp at empty
  · exact splitLoop_pieces once clean (Nat.lt_succ_self _)

theorem Cut_append_cons {name : Bytes} {byte : Byte} (clean : byte ∉ name) (value : Bytes) :
    Cut (name ++ byte :: value) [byte] = [name, value].filter fun part => !part.isEmpty := by
  have absent : ¬ [byte] <:+: name := fun within => clean (within.subset List.mem_cons_self)
  have found := find_unbordered (List.not_mem_nil : byte ∉ []) absent value
  have some_byte : ¬ (name ++ byte :: value).isEmpty = true := by simp
  have behind : (name ++ byte :: value).drop (name.length + 1) = value := by
    rw [List.drop_append, List.drop_eq_nil_of_le (by omega)]
    simp
  rw [Cut, if_neg some_byte]
  rw [show name ++ byte :: value = name ++ ([byte] ++ value) from rfl, found]
  dsimp only
  rw [List.take_left, List.singleton_append, behind]

/-! ## Trimming -/

theorem strip_eq_nil_iff (removes : α → Bool) (text : List α) :
    (text.dropWhile removes).rdropWhile removes = [] ↔ ∀ item ∈ text, removes item = true := by
  constructor
  · intro nothing
    have all := List.rdropWhile_eq_nil_iff.mp nothing
    by_cases empty : text.dropWhile removes = []
    · exact List.dropWhile_eq_nil_iff.mp empty
    · have first := List.head_dropWhile_not removes empty
      rw [all _ (List.head_mem empty)] at first
      cases first
  · intro all
    rw [List.dropWhile_eq_nil_iff.mpr all, List.rdropWhile_nil]

/-- Without the bytes `trimmed` at both ends. -/
def stripped (str : Bytes) (trimmed : Byte) : Bytes :=
  (str.dropWhile (· == trimmed)).rdropWhile (· == trimmed)

theorem trimRightLoop_eq (tmp : Bytes) (trimmed : Byte) {count : Nat}
    (within : count ≤ tmp.length) :
    trimRightLoop tmp trimmed count =
      if (tmp.take count).rdropWhile (· == trimmed) = [] then none
      else some ((tmp.take count).rdropWhile (· == trimmed)) := by
  induction count with
  | zero => rfl
  | succ count induction =>
      have byte : tmp.getD count 0 = tmp[count] := by simp [show count < tmp.length by omega]
      rw [trimRightLoop, List.take_succ_eq_append_getElem (by omega), byte]
      by_cases other : tmp[count] = trimmed
      · rw [if_neg (by simpa using other), List.rdropWhile_concat_pos _ _ _ (by simpa using other)]
        exact induction (by omega)
      · have filled := List.append_ne_nil_of_right_ne_nil (tmp.take count)
          (List.cons_ne_nil tmp[count] [])
        rw [if_pos other, List.rdropWhile_concat_neg _ _ _ (by simpa using other), if_neg filled]

/-- A text of nothing but `trimmed` is read outside its bounds. -/
theorem trim_eq (str : Bytes) (trimmed : Byte) :
    trim str trimmed =
      if stripped str trimmed = [] then none else some (stripped str trimmed) := by
  rw [trim, trimRight, trimRightLoop_eq _ _ (Nat.le_refl _), List.take_length, trimLeft]
  split
  · next blank =>
    have all : ∀ byte ∈ str, (byte == trimmed) = true := List.dropWhile_eq_nil_iff.mp blank
    have nothing : str.rdropWhile (· == trimmed) = [] := List.rdropWhile_eq_nil_iff.mpr all
    rw [stripped, blank, nothing]
    rfl
  · rfl

theorem stripped_ne_nil {str : Bytes} {trimmed : Byte} (filled : ∃ byte ∈ str, byte ≠ trimmed) :
    stripped str trimmed ≠ [] := by
  rcases filled with ⟨byte, member, other⟩
  intro nothing
  have all := (strip_eq_nil_iff (· == trimmed) str).mp nothing
  exact other (beq_iff_eq.mp (all byte member))

end MyBookSources.StringUtil
