import MyBookSources.Foundation.Segments
import MyBookSources.RecvMail.MailHelper
import MyBookSources.Utils.StringUtilSpec

/-! # Splitting and replacing

The three splitters of the sources are one function. They keep the length of the delimiter as an
`int`. `Replace` looks for the next occurrence behind what it has put in.
-/

namespace MyBookSources

open StringUtil (find find_cons_of_not_isPrefix find_eq_none_iff find_le find_of_isPrefix)

/-! ## Occurrences -/

theorem firstAt_of_find {pattern text : Bytes} {pos : Nat} (found : find pattern text = some pos) :
    FirstAt pattern text pos := by
  induction text generalizing pos with
  | nil =>
      rw [find] at found
      split at found
      · next empty =>
          cases found
          rw [List.isEmpty_iff.mp empty]
          exact ⟨List.nil_prefix, fun earlier before => absurd before (Nat.not_lt_zero _)⟩
      · cases found
  | cons byte rest induction =>
      by_cases front : pattern <+: byte :: rest
      · rw [find_of_isPrefix front] at found
        cases found
        exact ⟨front, fun earlier before => absurd before (Nat.not_lt_zero _)⟩
      · rw [find_cons_of_not_isPrefix front] at found
        rcases Option.map_eq_some_iff.mp found with ⟨back, foundRest, rfl⟩
        have later := induction foundRest
        constructor
        · exact later.found
        · intro earlier before
          cases earlier with
          | zero => exact front
          | succ earlier => exact later.first earlier (Nat.lt_of_succ_lt_succ before)

/-! ## The splitters -/

namespace Splitters

/-- The loop, with what it has appended to `v`. The result is `none` where it does not return:
`substr` throws behind the end of `buf`, where also a negative sum is as a `size_t`. -/
def splitLoop (delimiter : Bytes) : (turns : Nat) → (buf : Bytes) → (v : List Bytes) →
    Option (List Bytes)
  | 0, _, _ => none
  | turns + 1, buf, v =>
      let delimiterlength := int32 delimiter.length
      match find delimiter buf with
      | some pos =>
          let substr := buf.take pos
          let v := if substr.isEmpty then v else v ++ [substr]
          let next := pos + delimiterlength
          if next < 0 ∨ buf.length < next then none
          else splitLoop delimiter turns (buf.drop next.toNat) v
      | none => some (if buf.isEmpty then v else v ++ [buf])

/-- What the three functions do with a delimiter that is no null pointer. -/
def splitInto (turns : Nat) (str : Bytes) (v : List Bytes) (delimiter : Bytes) :
    Option (List Bytes) :=
  if str.isEmpty then some v else splitLoop delimiter turns str v

def StringUtil.Split := splitInto

def MailHelper.splitString := splitInto

def MailMonitor.split := splitInto

abbrev Splitter := (turns : Nat) → (str : Bytes) → (v : List Bytes) → (delimiter : Bytes) →
  Option (List Bytes)

def sourceSplitters : List Splitter :=
  [StringUtil.Split, MailHelper.splitString, MailMonitor.split]

/-- Every call returns, and has appended the segments that are not empty. -/
def Cuts (splitter : Splitter) (delimiter : Bytes) : Prop :=
  ∀ str v, ∃ segments, Segments delimiter str segments ∧
    delimiter.intercalate segments = str ∧
    ∃ enough, ∀ turns, enough ≤ turns → splitter turns str v delimiter =
      some (v ++ segments.filter fun segment => !segment.isEmpty)

theorem splitLoop_segments {delimiter : Bytes} (filled : delimiter ≠ [])
    (small : delimiter.length < 2 ^ 31) {buf : Bytes} {segments : List Bytes}
    (cut : Segments delimiter buf segments) (v : List Bytes) :
    ∃ enough, ∀ turns, enough ≤ turns → splitLoop delimiter turns buf v =
      some (v ++ segments.filter fun segment => !segment.isEmpty) := by
  induction cut generalizing v with
  | @last buf clean =>
      refine ⟨1, fun turns more => ?_⟩
      rcases Nat.exists_eq_add_of_le' more with ⟨turns, rfl⟩
      rw [splitLoop, (find_eq_none_iff delimiter buf).mpr clean]
      cases buf <;> simp
  | @cut buf position segments first _ induction =>
      have inside := first.length_le filled
      rcases induction (if (buf.take position).isEmpty then v else v ++ [buf.take position])
        with ⟨enough, later⟩
      refine ⟨enough + 1, fun turns more => ?_⟩
      rcases Nat.exists_eq_add_of_le' (Nat.le_of_add_left_le more) with ⟨turns, rfl⟩
      rcases Option.isSome_iff_exists.mp
        ((StringUtil.find_isSome_iff delimiter buf).mpr first.isInfix) with ⟨pos, found⟩
      have same := (firstAt_of_find found).unique first
      have next : (position + (delimiter.length : Int)).toNat = position + delimiter.length := by
        omega
      rw [splitLoop, found, same, int32_of_lt small]
      dsimp only
      rw [if_neg (by omega), next, later turns (by omega)]
      cases empty : (buf.take position).isEmpty <;> simp [empty]

/-- A delimiter whose length is no `int` does not split itself into nothing. -/
theorem splitLoop_long {delimiter : Bytes} (long : 2 ^ 31 ≤ delimiter.length) (turns : Nat)
    (v : List Bytes) : splitLoop delimiter turns delimiter v ≠ some v := by
  induction turns with
  | zero => exact (Option.some_ne_none v).symm
  | succ turns induction =>
      have shorter : int32 delimiter.length < delimiter.length := by
        unfold int32
        split <;> omega
      rw [splitLoop, find_of_isPrefix (List.prefix_refl delimiter)]
      dsimp only
      rw [List.take_zero, List.isEmpty_nil, if_pos rfl, Nat.cast_zero, Int.zero_add]
      split
      · exact (Option.some_ne_none v).symm
      · next inside =>
        have rest : (delimiter.drop (int32 delimiter.length).toNat).length =
            delimiter.length - (int32 delimiter.length).toNat := List.length_drop
        rcases Nat.eq_zero_or_pos (int32 delimiter.length).toNat with none | moves
        · rw [none, List.drop_zero]
          exact induction
        · cases turns with
          | zero => exact (Option.some_ne_none v).symm
          | succ turns =>
              have absent : find delimiter (delimiter.drop (int32 delimiter.length).toNat) = none :=
                (find_eq_none_iff _ _).mpr fun within => by
                  have size := within.length_le
                  omega
              have filled : delimiter.drop (int32 delimiter.length).toNat ≠ [] := by
                rw [← List.length_pos_iff]
                omega
              rw [splitLoop, absent]
              dsimp only
              rw [List.isEmpty_eq_false_iff.mpr filled]
              simp

theorem splitInto_cuts_iff {delimiter : Bytes} (filled : delimiter ≠ []) :
    Cuts splitInto delimiter ↔ delimiter.length < 2 ^ 31 := by
  constructor
  · intro cuts
    by_contra long
    rcases cuts delimiter [] with ⟨segments, own, -, enough, returns⟩
    have front : FirstAt delimiter delimiter 0 :=
      ⟨List.prefix_refl _, fun earlier before => absurd before (Nat.not_lt_zero _)⟩
    have behind : Segments delimiter (delimiter.drop (0 + delimiter.length)) [[]] := by
      rw [Nat.zero_add, List.drop_length]
      exact .last fun within => filled (List.infix_nil.mp within)
    rw [own.unique (.cut front behind)] at returns
    have result := returns enough (Nat.le_refl _)
    rw [splitInto, List.isEmpty_eq_false_iff.mpr filled] at result
    exact splitLoop_long (Nat.not_lt.mp long) enough [] result
  · intro small str v
    rcases Segments.exists_segments filled str with ⟨segments, cut⟩
    refine ⟨segments, cut, cut.intercalate_eq, ?_⟩
    rcases splitLoop_segments filled small cut v with ⟨enough, returns⟩
    refine ⟨enough, fun turns more => ?_⟩
    rw [splitInto]
    split
    · next empty =>
      rw [List.isEmpty_iff] at empty
      subst empty
      cases cut with
      | last _ => simp
      | cut first _ => exact absurd (List.infix_nil.mp first.isInfix) filled
    · exact returns turns more

/-- The splitters cut every text at a delimiter exactly if its length is an `int`. -/
theorem splitters_cut_iff {delimiter : Bytes} (filled : delimiter ≠ []) (splitter : Splitter)
    (own : splitter ∈ sourceSplitters) :
    Cuts splitter delimiter ↔ delimiter.length < 2 ^ 31 := by
  have same : splitter = splitInto := by
    simp only [sourceSplitters, List.mem_cons, List.not_mem_nil, or_false] at own
    rcases own with rfl | rfl | rfl <;> rfl
  rw [same]
  exact splitInto_cuts_iff filled

theorem splitters_cut_lines :
    Cuts MailHelper.splitString [13, 10] ↔ ([13, 10] : Bytes).length < 2 ^ 31 :=
  splitters_cut_iff (List.cons_ne_nil _ _) MailHelper.splitString (by simp [sourceSplitters])

/-- A delimiter of `2 ^ 31` letters. -/
theorem long_delimiter_never_cuts :
    ¬ Cuts StringUtil.Split (List.replicate (2 ^ 31) 97) ∧
      ¬ Cuts MailHelper.splitString (List.replicate (2 ^ 31) 97) ∧
      ¬ Cuts MailMonitor.split (List.replicate (2 ^ 31) 97) := by
  have size : (List.replicate (2 ^ 31) (97 : Byte)).length = 2 ^ 31 := List.length_replicate
  have filled : List.replicate (2 ^ 31) (97 : Byte) ≠ [] := by
    rw [← List.length_pos_iff, size]
    exact Nat.two_pow_pos 31
  have never : ¬ Cuts splitInto (List.replicate (2 ^ 31) 97) := by
    rw [splitInto_cuts_iff filled, size]
    exact Nat.lt_irrefl _
  exact ⟨never, never, never⟩

end Splitters

/-! ## Replacing -/

namespace StringUtil

open RecvMail (findFrom)

/-- The loop of `Replace`. `pos` is a place in the string and never `npos`, so that only the
search ends it. -/
def replaceLoop (toReplaced newStr : Bytes) : (turns : Nat) → (str : Bytes) → (pos : Nat) →
    Option Bytes
  | 0, _, _ => none
  | turns + 1, str, pos =>
      match findFrom toReplaced str pos with
      | some pos =>
          replaceLoop toReplaced newStr turns
            (str.take pos ++ newStr ++ str.drop (pos + toReplaced.length)) (pos + newStr.length)
      | none => some str

def Replace (turns : Nat) (str toReplaced newStr : Bytes) : Option Bytes :=
  if toReplaced.isEmpty || newStr.isEmpty then some str
  else replaceLoop toReplaced newStr turns str 0

theorem findFrom_append (pattern done text : Bytes) :
    findFrom pattern (done ++ text) done.length = (find pattern text).map (· + done.length) := by
  have inside : ¬ (done ++ text).length < done.length := by
    rw [List.length_append]
    omega
  rw [findFrom, if_neg inside, List.drop_left]

/-- What is done is not looked at again. -/
theorem replaceLoop_segments {toReplaced : Bytes} (newStr : Bytes) {text : Bytes}
    {segments : List Bytes} (cut : Segments toReplaced text segments) (done : Bytes) :
    ∃ enough, ∀ turns, enough ≤ turns →
      replaceLoop toReplaced newStr turns (done ++ text) done.length =
        some (done ++ newStr.intercalate segments) := by
  induction cut generalizing done with
  | @last text clean =>
      refine ⟨1, fun turns more => ?_⟩
      rcases Nat.exists_eq_add_of_le' more with ⟨turns, rfl⟩
      rw [replaceLoop, findFrom_append, (find_eq_none_iff toReplaced text).mpr clean,
        List.intercalate_singleton]
      rfl
  | @cut text position segments first rest induction =>
      rcases induction (done ++ text.take position ++ newStr) with ⟨enough, later⟩
      refine ⟨enough + 1, fun turns more => ?_⟩
      rcases Nat.exists_eq_add_of_le' (Nat.le_of_add_left_le more) with ⟨turns, rfl⟩
      rcases Option.isSome_iff_exists.mp
        ((find_isSome_iff toReplaced text).mpr first.isInfix) with ⟨pos, found⟩
      cases (firstAt_of_find found).unique first
      have inside := find_le found
      have front : (done ++ text).take (position + done.length) = done ++ text.take position := by
        rw [Nat.add_comm, List.take_append, Nat.add_sub_cancel_left,
          List.take_of_length_le (Nat.le_add_right _ _)]
      have back : (done ++ text).drop (position + done.length + toReplaced.length) =
          text.drop (position + toReplaced.length) := by
        have order : position + done.length + toReplaced.length =
            done.length + (position + toReplaced.length) := by omega
        rw [order, ← List.drop_drop, List.drop_left]
      have size : position + done.length + newStr.length =
          (done ++ text.take position ++ newStr).length := by
        simp only [List.length_append, List.length_take]
        omega
      rw [replaceLoop, findFrom_append, found]
      dsimp only [Option.map_some]
      rw [front, back, size, later turns (by omega),
        List.intercalate_cons_of_ne_nil rest.ne_nil]
      simp only [List.append_assoc]

/-- Each occurrence is replaced once, also by a text that has it. -/
theorem replace_segments (str : Bytes) {toReplaced newStr : Bytes} (old : toReplaced ≠ [])
    (new : newStr ≠ []) :
    ∃ segments, Segments toReplaced str segments ∧ toReplaced.intercalate segments = str ∧
      ∃ enough, ∀ turns, enough ≤ turns →
        Replace turns str toReplaced newStr = some (newStr.intercalate segments) := by
  rcases Segments.exists_segments old str with ⟨segments, cut⟩
  refine ⟨segments, cut, cut.intercalate_eq, ?_⟩
  rcases replaceLoop_segments newStr cut [] with ⟨enough, replaces⟩
  refine ⟨enough, fun turns more => ?_⟩
  rw [Replace, List.isEmpty_eq_false_iff.mpr old, List.isEmpty_eq_false_iff.mpr new]
  exact replaces turns more

theorem replace_segments_doubling :
    ∃ segments, Segments [97] [97, 98, 97] segments ∧
      ([97] : Bytes).intercalate segments = [97, 98, 97] ∧
      ∃ enough, ∀ turns, enough ≤ turns →
        Replace turns [97, 98, 97] [97] [97, 97] = some (([97, 97] : Bytes).intercalate segments) :=
  replace_segments [97, 98, 97] (List.cons_ne_nil _ _) (List.cons_ne_nil _ _)

example : Replace 3 [97, 98, 97] [97] [97, 97] = some [97, 97, 98, 97, 97] := by decide

end StringUtil

end MyBookSources
