import MyBookSources.RecvMail.Splitting
import MyBookSources.Utils.StringSegments

/-! # Boundary tags

What `getBoundaryTag` finds: every text in quotation marks behind a `boundary=`, as long as the
tags stand where a `long` holds their positions.
-/

namespace MyBookSources.RecvMail

open StringUtil (find find_unbordered)

theorem findFrom_drop (pattern : Bytes) {text : Bytes} {skip : Nat} (inText : skip ≤ text.length)
    (start : Nat) :
    findFrom pattern text (skip + start) =
      (findFrom pattern (text.drop skip) start).map (· + skip) := by
  unfold findFrom
  rw [List.length_drop, List.drop_drop]
  by_cases beyond : text.length < skip + start
  · have beyondRest : text.length - skip < start := by omega
    rw [if_pos beyond, if_pos beyondRest]
    rfl
  · have inRest : ¬ text.length - skip < start := by omega
    rw [if_neg beyond, if_neg inRest, Option.map_map]
    congr 1
    funext pos
    simp only [Function.comp_apply]
    omega

theorem prefix_of_findFrom {pattern text : Bytes} {start place : Nat}
    (found : findFrom pattern text start = some place) : pattern <+: text.drop place := by
  unfold findFrom at found
  split at found
  · cases found
  · rcases Option.map_eq_some_iff.mp found with ⟨back, foundRest, rfl⟩
    have first := (firstAt_of_find foundRest).found
    rwa [List.drop_drop, Nat.add_comm] at first

namespace MailHelper

/-- The loop of `getBoundaryTag` with positions of any size. -/
def scanTags (strMail : Bytes) (lStart : Nat) : Option (List Bytes) :=
  match _found : findFrom (ascii "boundary=\"") strMail lStart with
  | none => some []
  | some start =>
      match _closed : findFrom (ascii "\"") strMail (start + 10) with
      | none => none
      | some lEnd =>
          (scanTags strMail (lEnd + 1)).map fun others =>
            strMail.slice (start + 10) lEnd :: others
  termination_by strMail.length - lStart
  decreasing_by
    have opened := findFrom_le _found
    have closed := findFrom_le _closed
    have one : (ascii "\"").length = 1 := by decide
    omega

theorem scanTags_none {strMail : Bytes} {lStart : Nat}
    (absent : findFrom (ascii "boundary=\"") strMail lStart = none) :
    scanTags strMail lStart = some [] := by
  rw [scanTags]
  split
  · rfl
  · next found => simp [absent] at found

theorem scanTags_unclosed {strMail : Bytes} {lStart start : Nat}
    (found : findFrom (ascii "boundary=\"") strMail lStart = some start)
    (unclosed : findFrom (ascii "\"") strMail (start + 10) = none) :
    scanTags strMail lStart = none := by
  rw [scanTags]
  split
  · next absent => simp [found] at absent
  · next other same =>
      rw [found] at same
      cases same
      split
      · rfl
      · next closed => simp [unclosed] at closed

theorem scanTags_some {strMail : Bytes} {lStart start lEnd : Nat}
    (found : findFrom (ascii "boundary=\"") strMail lStart = some start)
    (closed : findFrom (ascii "\"") strMail (start + 10) = some lEnd) :
    scanTags strMail lStart =
      (scanTags strMail (lEnd + 1)).map fun others =>
        strMail.slice (start + 10) lEnd :: others := by
  rw [scanTags]
  split
  · next absent => simp [found] at absent
  · next other same =>
      rw [found] at same
      cases same
      split
      · next unclosed => simp [closed] at unclosed
      · next other same =>
          rw [closed] at same
          cases same
          rfl

theorem scanTags_drop {text : Bytes} {skip : Nat} (inText : skip ≤ text.length)
    (start : Nat) : scanTags text (skip + start) = scanTags (text.drop skip) start := by
  induction size : text.length - start using Nat.strong_induction_on generalizing start with
  | _ count induction =>
      have first := findFrom_drop (ascii "boundary=\"") inText start
      cases opened : findFrom (ascii "boundary=\"") (text.drop skip) start with
      | none =>
          rw [opened] at first
          rw [scanTags_none first, scanTags_none opened]
      | some pos =>
          rw [opened, Option.map_some] at first
          have second := findFrom_drop (ascii "\"") inText (pos + 10)
          have shifted : pos + skip + 10 = skip + (pos + 10) := by omega
          cases closed : findFrom (ascii "\"") (text.drop skip) (pos + 10) with
          | none =>
              rw [closed, ← shifted] at second
              rw [scanTags_unclosed first second, scanTags_unclosed opened closed]
          | some lEnd =>
              rw [closed, ← shifted, Option.map_some] at second
              have before := findFrom_le opened
              have behind := findFrom_le closed
              have one : (ascii "\"").length = 1 := by decide
              rw [List.length_drop] at behind
              have next : lEnd + skip + 1 = skip + (lEnd + 1) := by omega
              rw [scanTags_some first second, scanTags_some opened closed, next,
                induction (text.length - (lEnd + 1)) (by omega) (lEnd + 1) rfl]
              have cut : text.slice (pos + skip + 10) (lEnd + skip) =
                  Bytes.slice (text.drop skip) (pos + 10) lEnd := by
                rw [Bytes.slice, Bytes.slice, List.take_drop, List.drop_drop, shifted,
                  Nat.add_comm lEnd]
              rw [cut]

theorem scanTags_cons {front boundary : Bytes}
    (clean : ¬ ascii "boundary=\"" <:+: front) (noQuote : 34 ∉ boundary) (rest : Bytes) :
    scanTags (front ++ (ascii "boundary=\"" ++ (boundary ++ 34 :: rest))) 0 =
      (scanTags rest 0).map (boundary :: ·) := by
  have word : ascii "boundary=\"" = 98 :: ascii "oundary=\"" := by decide
  have ten : (ascii "boundary=\"").length = 10 := by decide
  have mark : ascii "\"" = [34] := by decide
  have absent : ¬ [34] <:+: boundary := fun within => noQuote (within.subset (by simp))
  generalize whole_eq : front ++ (ascii "boundary=\"" ++ (boundary ++ 34 :: rest)) = whole
  have opened : findFrom (ascii "boundary=\"") whole 0 = some front.length := by
    have once : 98 ∉ ascii "oundary=\"" := by decide
    rw [word] at clean
    rw [findFrom, if_neg (Nat.not_lt_zero _), List.drop_zero, ← whole_eq, word,
      find_unbordered once clean]
    rfl
  have behind : whole.drop (front.length + 10) = boundary ++ 34 :: rest := by
    rw [← whole_eq, ← List.append_assoc, List.drop_left']
    rw [List.length_append, ten]
  have size : whole.length = front.length + 10 + (boundary.length + 1 + rest.length) := by
    rw [← whole_eq]
    simp only [List.length_append, ten, List.length_cons]
    omega
  have closed : findFrom (ascii "\"") whole (front.length + 10) =
      some (boundary.length + (front.length + 10)) := by
    rw [findFrom, if_neg (by omega), behind, mark]
    have found : find [34] (boundary ++ ([34] ++ rest)) = some boundary.length :=
      find_unbordered List.not_mem_nil absent rest
    rw [List.cons_append, List.nil_append] at found
    rw [found, Option.map_some]
  have cut : whole.slice (front.length + 10) (boundary.length + (front.length + 10)) =
      boundary := by
    rw [Bytes.slice, Nat.add_comm boundary.length, List.drop_take, behind, Nat.add_sub_cancel_left,
      List.take_left]
  have last : whole.drop (boundary.length + (front.length + 10) + 1) = rest := by
    have order : boundary.length + (front.length + 10) + 1 =
        front.length + 10 + (boundary.length + 1) := by omega
    rw [order, ← List.drop_drop, behind, ← List.drop_drop, List.drop_left]
    rfl
  have within : boundary.length + (front.length + 10) + 1 ≤ whole.length := by omega
  have further := scanTags_drop within 0
  rw [Nat.add_zero, last] at further
  rw [scanTags_some opened closed, cut, further]

/-! ## The loop -/

/-- A `long` holds where each tag begins and where its mark stands. -/
def Held (strMail : Bytes) : Prop :=
  ∀ lStart start, findFrom (ascii "boundary=\"") strMail lStart = some start →
    start + 10 < 2 ^ 31 ∧
      ∀ lEnd, findFrom (ascii "\"") strMail (start + 10) = some lEnd → lEnd + 1 < 2 ^ 31

theorem held_append {front rest : Bytes} (short : front.length < 2 ^ 31) (noMark : 34 ∉ rest) :
    Held (front ++ rest) := by
  have mark_lt : ∀ place, (front ++ rest)[place]? = some 34 → place < front.length := by
    intro place found
    by_contra behind
    rw [List.getElem?_append_right (Nat.le_of_not_lt behind)] at found
    exact noMark (List.mem_of_getElem? found)
  intro lStart start found
  constructor
  · rcases prefix_of_findFrom found with ⟨later, whole⟩
    have mark : (front ++ rest)[start + 9]? = some 34 := by
      rw [← List.getElem?_drop, ← whole]
      rfl
    have inside := mark_lt _ mark
    omega
  · intro lEnd closed
    rcases prefix_of_findFrom closed with ⟨later, whole⟩
    have mark : (front ++ rest)[lEnd]? = some 34 := by
      rw [← Nat.add_zero lEnd, ← List.getElem?_drop, ← whole]
      rfl
    have inside := mark_lt _ mark
    omega

theorem held_of_short {strMail : Bytes} (short : strMail.length < 2 ^ 31) : Held strMail := by
  have held := held_append short (List.not_mem_nil (a := 34))
  rwa [List.append_nil] at held

section

variable {strMail : Bytes} (held : Held strMail)

include held in
theorem tagLoop_closed {lStart start lEnd : Nat}
    (found : findFrom (ascii "boundary=\"") strMail lStart = some start)
    (closed : findFrom (ascii "\"") strMail (start + 10) = some lEnd) (turns : Nat)
    (vecBoundary : List Bytes) :
    tagLoop strMail (turns + 1) lStart vecBoundary =
      tagLoop strMail turns (lEnd + 1 : Nat)
        (vecBoundary ++ [strMail.slice (start + 10) lEnd]) := by
  have opened := findFrom_le found
  have within := findFrom_le closed
  have one : (ascii "\"").length = 1 := by decide
  have inside : start + 10 ≤ strMail.length := by omega
  have small := (held _ _ found).2 _ closed
  have first : position (some start) = start := position_some (by omega)
  have last : position (some lEnd) = lEnd := position_some (by omega)
  have lBegin : signed 32 ((start : Int) + 10) = (start + 10 : Nat) :=
    signed_of_lt (by omega) (by omega)
  have between : signed 32 ((lEnd : Int) - start) = (lEnd - start : Nat) := by
    rw [signed_of_lt (by omega) (by omega)]
    omega
  have count : signed 32 (((lEnd - start : Nat) : Int) - 10) = (lEnd - (start + 10) : Nat) := by
    rw [signed_of_lt (by omega) (by omega)]
    omega
  have next : signed 32 ((lEnd : Int) + 1) = (lEnd + 1 : Nat) := signed_of_lt (by omega) (by omega)
  have item : substr strMail (start + 10 : Nat) (lEnd - (start + 10) : Nat) =
      some (strMail.slice (start + 10) lEnd) := by
    rw [substr_natCast inside, Bytes.slice, List.drop_take]
  rw [tagLoop, findAt_natCast, found, first]
  dsimp only
  rw [if_neg (by omega), lBegin, findAt_natCast, closed, last, between, count, item, next]
  rfl

include held in
theorem tagLoop_unclosed {lStart start : Nat}
    (found : findFrom (ascii "boundary=\"") strMail lStart = some start)
    (unclosed : findFrom (ascii "\"") strMail (start + 10) = none) (turns : Nat)
    (vecBoundary : List Bytes) :
    tagLoop strMail (turns + 1) lStart vecBoundary =
      tagLoop strMail turns 0 (vecBoundary ++ [strMail.drop (start + 10)]) := by
  have opened := findFrom_le found
  have ten : (ascii "boundary=\"").length = 10 := by decide
  have small := (held _ _ found).1
  have first : position (some start) = start := position_some (by omega)
  have lBegin : signed 32 ((start : Int) + 10) = (start + 10 : Nat) :=
    signed_of_lt (by omega) (by omega)
  have between : signed 32 (-1 - (start : Int)) = -1 - start :=
    signed_of_range (by omega) (by omega)
  have count : signed 32 (-1 - (start : Int) - 10) = -1 - start - 10 :=
    signed_of_range (by omega) (by omega)
  have item : substr strMail (start + 10 : Nat) (-1 - start - 10) =
      some (strMail.drop (start + 10)) :=
    substr_rest (by omega) (by omega)
  rw [tagLoop, findAt_natCast, found, first]
  dsimp only
  rw [if_neg (by omega), lBegin, findAt_natCast, unclosed, position_none, between, count, item]
  rfl

theorem tagLoop_absent {lStart : Nat}
    (absent : findFrom (ascii "boundary=\"") strMail lStart = none) (turns : Nat)
    (vecBoundary : List Bytes) :
    tagLoop strMail (turns + 1) lStart vecBoundary = some vecBoundary := by
  rw [tagLoop, findAt_natCast, absent, position_none]
  exact if_pos rfl

include held in
/-- The loop goes on from the start for ever. -/
theorem tagLoop_none (endless : scanTags strMail 0 = none) (turns : Nat) {lStart : Nat}
    (own : scanTags strMail lStart = none) (vecBoundary : List Bytes) :
    tagLoop strMail turns lStart vecBoundary = none := by
  induction turns generalizing lStart vecBoundary with
  | zero => rfl
  | succ turns induction =>
      cases found : findFrom (ascii "boundary=\"") strMail lStart with
      | none =>
          rw [scanTags_none found] at own
          cases own
      | some start =>
          cases closed : findFrom (ascii "\"") strMail (start + 10) with
          | none =>
              rw [tagLoop_unclosed held found closed]
              exact induction endless _
          | some lEnd =>
              rw [scanTags_some found closed, Option.map_eq_none_iff] at own
              rw [tagLoop_closed held found closed]
              exact induction own _

include held in
/-- Where the tags are closed, the loop returns with their values. -/
theorem tagLoop_some {lStart : Nat} {tags : List Bytes}
    (collected : scanTags strMail lStart = some tags) {turns : Nat}
    (enough : strMail.length - lStart < turns) (vecBoundary : List Bytes) :
    tagLoop strMail turns lStart vecBoundary = some (vecBoundary ++ tags) := by
  induction turns generalizing lStart vecBoundary tags with
  | zero => exact absurd enough (Nat.not_lt_zero _)
  | succ turns induction =>
      cases found : findFrom (ascii "boundary=\"") strMail lStart with
      | none =>
          rw [scanTags_none found] at collected
          cases collected
          rw [List.append_nil, tagLoop_absent found]
      | some start =>
          cases closed : findFrom (ascii "\"") strMail (start + 10) with
          | none =>
              rw [scanTags_unclosed found closed] at collected
              cases collected
          | some lEnd =>
              have opened := findFrom_le found
              have within := findFrom_le closed
              have one : (ascii "\"").length = 1 := by decide
              rw [scanTags_some found closed] at collected
              rcases Option.map_eq_some_iff.mp collected with ⟨others, later, rfl⟩
              rw [tagLoop_closed held found closed, induction later (by omega), List.append_assoc,
                List.singleton_append]

include held in
theorem boundaryTags_eq : boundaryTags strMail = scanTags strMail 0 := by
  rw [boundaryTags]
  cases collected : scanTags strMail 0 with
  | none => exact tagLoop_none held collected _ collected []
  | some tags => exact tagLoop_some held collected (by omega) []

end

theorem boundaryTags_absent {strMail : Bytes}
    (absent : findFrom (ascii "boundary=\"") strMail 0 = none) :
    boundaryTags strMail = some [] :=
  tagLoop_absent absent _ []

end MailHelper

end MyBookSources.RecvMail
