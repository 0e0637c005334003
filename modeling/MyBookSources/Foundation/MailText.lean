import MyBookSources.Foundation.Bytes
import Mathlib.Data.List.DropRight

/-! # Texts of mails

Lines that end with CR LF; the transparency rule under which a text is framed in SMTP; and the
quoted-printable encoding of lines.
-/

namespace MyBookSources.MailText

def crlf : Bytes := [13, 10]

/-! ## Lines -/

def consByte (byte : Byte) : List Bytes → List Bytes
  | [] => [[byte]]
  | line :: rest =>
      if byte = 13 ∧ line.head? = some 10 then [] :: line.tail :: rest
      else (byte :: line) :: rest

/-- The lines of a text; the last one is what stands behind the last line end. -/
def lines (text : Bytes) : List Bytes := text.foldr consByte [[]]

def unlines : List Bytes → Bytes
  | [] => []
  | [line] => line
  | line :: next :: rest => line ++ crlf ++ unlines (next :: rest)

example : lines (ascii "a\r\n\r\nb\n") = [ascii "a", [], ascii "b\n"] := by decide

theorem lines_cons (byte : Byte) (text : Bytes) :
    lines (byte :: text) = consByte byte (lines text) := rfl

theorem consByte_ne_nil (byte : Byte) (rest : List Bytes) : consByte byte rest ≠ [] := by
  unfold consByte
  split
  · simp
  · split <;> simp

theorem lines_ne_nil (text : Bytes) : lines text ≠ [] := by
  cases text with
  | nil => simp [lines]
  | cons byte text => exact consByte_ne_nil byte _

theorem unlines_consByte (byte : Byte) {rest : List Bytes} (some_line : rest ≠ []) :
    unlines (consByte byte rest) = byte :: unlines rest := by
  cases rest with
  | nil => exact absurd rfl some_line
  | cons line rest =>
      simp only [consByte]
      split
      · next split =>
          rcases split with ⟨rfl, first⟩
          cases line with
          | nil => cases first
          | cons head line =>
              cases first
              cases rest <;> simp [unlines, crlf]
      · cases rest <;> simp [unlines]

theorem unlines_lines (text : Bytes) : unlines (lines text) = text := by
  induction text with
  | nil => rfl
  | cons byte text induction =>
      rw [lines_cons, unlines_consByte byte (lines_ne_nil text), induction]

theorem consByte_append (byte : Byte) {left : List Bytes} (some_line : left ≠ [])
    (right : List Bytes) : consByte byte (left ++ right) = consByte byte left ++ right := by
  cases left with
  | nil => exact absurd rfl some_line
  | cons line left =>
      simp only [consByte, List.cons_append]
      split <;> rfl

theorem lines_crlf (text : Bytes) : lines (crlf ++ text) = [] :: lines text := by
  rcases List.exists_cons_of_ne_nil (lines_ne_nil text) with ⟨line, rest, same⟩
  have lf : lines (10 :: text) = (10 :: line) :: rest := by
    rw [lines_cons, same]
    rfl
  change lines (13 :: 10 :: text) = _
  rw [lines_cons, lf, same]
  rfl

theorem lines_append (left right : Bytes) :
    lines (left ++ crlf ++ right) = lines left ++ lines right := by
  induction left with
  | nil => exact lines_crlf right
  | cons byte left induction =>
      rw [List.cons_append, List.cons_append, lines_cons, lines_cons, induction,
        consByte_append byte (lines_ne_nil left)]

theorem lines_of_noCr {text : Bytes} (noCr : 13 ∉ text) : lines text = [text] := by
  induction text with
  | nil => rfl
  | cons byte text induction =>
      rw [lines_cons, induction (fun member => noCr (List.mem_cons_of_mem _ member))]
      have other : byte ≠ 13 := fun same => noCr (by simp [same])
      simp [consByte, other]

def terminated (text : List Bytes) : Bytes := text.flatMap fun line => line ++ crlf

theorem lines_terminated {text : List Bytes} (single : ∀ line ∈ text, lines line = [line]) :
    lines (terminated text) = text ++ [[]] := by
  induction text with
  | nil => rfl
  | cons line text induction =>
      change lines (line ++ crlf ++ terminated text) = _
      rw [lines_append, single line List.mem_cons_self,
        induction fun other member => single other (List.mem_cons_of_mem _ member)]
      rfl

theorem exists_terminated {text : List Bytes} (single : ∀ line ∈ text, lines line = [line])
    (some_line : text ≠ []) : ∃ front, terminated text = front ++ crlf ∧ lines front = text := by
  rcases List.eq_nil_or_concat text with rfl | ⟨init, last, rfl⟩
  · exact absurd rfl some_line
  · have split : terminated (init.concat last) = terminated init ++ last ++ crlf := by
      simp [terminated]
    refine ⟨_, split, ?_⟩
    have whole := lines_terminated single
    rw [split, ← List.append_nil (_ ++ crlf), lines_append] at whole
    exact List.append_cancel_right whole

theorem lines_append_last (left : Bytes) {last : Bytes} (noCr : 13 ∉ last) (noLf : 10 ∉ last) :
    ∃ front line, lines left = front ++ [line] ∧
      lines (left ++ last) = front ++ [line ++ last] := by
  induction left with
  | nil =>
      refine ⟨[], [], rfl, ?_⟩
      exact lines_of_noCr noCr
  | cons byte left induction =>
      rcases induction with ⟨front, line, own, extended⟩
      rw [List.cons_append, lines_cons, lines_cons, own, extended]
      cases front with
      | nil =>
          have head : (line ++ last).head? = some 10 ↔ line.head? = some 10 := by
            cases line with
            | nil =>
                cases last with
                | nil => rfl
                | cons first last =>
                    have other : first ≠ 10 := fun same => noLf (by simp [same])
                    simp [other]
            | cons first line => rfl
          simp only [List.nil_append, consByte, head]
          split
          · next split =>
              cases line with
              | nil => cases split.2
              | cons first line => exact ⟨[[]], line, rfl, rfl⟩
          · exact ⟨[], byte :: line, rfl, rfl⟩
      | cons first front =>
          rw [List.cons_append, List.cons_append]
          simp only [consByte]
          split
          · exact ⟨[] :: first.tail :: front, line, rfl, rfl⟩
          · exact ⟨(byte :: first) :: front, line, rfl, rfl⟩

/-! ## Transparency -/

def unstuff (line : Bytes) : Bytes := if line.head? = some 46 then line.tail else line

/-- What an SMTP server makes of the lines after `DATA`: the text up to the first line that is
a single dot, and the lines behind it, which it takes for commands. The last line counts only
once it has ended. -/
def receiveData : List Bytes → Option (List Bytes × List Bytes)
  | [] => none
  | [_] => none
  | line :: next :: rest =>
      if line = [46] then some ([], next :: rest)
      else (receiveData (next :: rest)).map fun received =>
        (unstuff line :: received.1, received.2)

/-- The text ends at its end exactly if no line before is a single dot. -/
theorem receiveData_iff (text content : List Bytes) :
    receiveData (text ++ [[46], []]) = some (content, [[]]) ↔
      [46] ∉ text ∧ content = text.map unstuff := by
  induction text generalizing content with
  | nil =>
      simp only [List.nil_append, receiveData, if_true, Option.some.injEq, Prod.mk.injEq,
        and_true, List.not_mem_nil, not_false_eq_true, true_and, List.map_nil]
      exact eq_comm
  | cons line text induction =>
      have further : ∃ next rest, text ++ [[46], []] = next :: rest ∧
          2 ≤ (next :: rest).length := by
        cases text with
        | nil => exact ⟨[46], [[]], rfl, Nat.le_refl 2⟩
        | cons next text => exact ⟨next, text ++ [[46], []], rfl, by simp⟩
      rcases further with ⟨next, rest, same, long⟩
      rw [List.cons_append, same, receiveData]
      by_cases ends : line = [46]
      · rw [if_pos ends, ends]
        constructor
        · intro taken
          cases taken
          exact absurd long (by decide)
        · rintro ⟨absent, _⟩
          exact absurd List.mem_cons_self absent
      · rw [if_neg ends, ← same, Option.map_eq_some_iff]
        constructor
        · rintro ⟨⟨tail, left⟩, received, result⟩
          simp only [Prod.mk.injEq] at result
          rcases result with ⟨rfl, rfl⟩
          rcases (induction tail).mp received with ⟨absent, rfl⟩
          exact ⟨fun member => (List.mem_cons.mp member).elim (fun same => ends same.symm) absent,
            rfl⟩
        · rintro ⟨absent, rfl⟩
          refine ⟨(text.map unstuff, [[]]), (induction _).mpr ⟨?_, rfl⟩, rfl⟩
          exact fun member => absent (List.mem_cons_of_mem _ member)

/-! ## Reading line by line -/

/-- The text that lines are read as. `read` gives the text of a line and whether the line ends
there; the last line has no end. -/
def readLines (read : Bytes → Bytes × Bool) : List Bytes → Bytes
  | [] => []
  | [line] => (read line).1
  | line :: next :: rest =>
      (read line).1 ++ (if (read line).2 then crlf else []) ++ readLines read (next :: rest)

def readFront (read : Bytes → Bytes × Bool) (front : List Bytes) : Bytes :=
  front.flatMap fun line => (read line).1 ++ if (read line).2 then crlf else []

theorem readLines_append (read : Bytes → Bytes × Bool) (front : List Bytes) {rest : List Bytes}
    (some_line : rest ≠ []) :
    readLines read (front ++ rest) = readFront read front ++ readLines read rest := by
  induction front with
  | nil => rfl
  | cons line front induction =>
      have further : ∃ next more, front ++ rest = next :: more :=
        List.exists_cons_of_ne_nil (by simp [some_line])
      rcases further with ⟨next, more, same⟩
      rw [List.cons_append, same, readLines, ← same, induction, readFront, readFront,
        List.flatMap_cons]
      simp only [List.append_assoc]

theorem readLines_map (read : Bytes → Bytes × Bool) (change : Bytes → Bytes)
    (text : List Bytes) :
    readLines read (text.map change) = readLines (fun line => read (change line)) text := by
  induction text with
  | nil => rfl
  | cons line text induction =>
      cases text with
      | nil => rfl
      | cons next rest =>
          simp only [List.map_cons, readLines] at induction ⊢
          rw [induction]

def Shrinks (read : Bytes → Bytes × Bool) : Prop :=
  ∀ line, read line = (line, true) ∨ (read line).1.length < line.length

theorem length_readLines_le {read : Bytes → Bytes × Bool} (shrinks : Shrinks read)
    (text : List Bytes) : (readLines read text).length ≤ (unlines text).length := by
  induction text with
  | nil => exact Nat.le_refl _
  | cons line text induction =>
      have own : (read line).1.length ≤ line.length := by
        rcases shrinks line with same | less
        · rw [same]
        · exact Nat.le_of_lt less
      cases text with
      | nil => exact own
      | cons next rest =>
          have ending : (if (read line).2 then crlf else []).length ≤ crlf.length := by
            split
            · exact Nat.le_refl _
            · exact Nat.zero_le _
          simp only [readLines, unlines, List.length_append] at induction ⊢
          omega

/-- The text is read as itself exactly if each of its lines is. -/
theorem readLines_eq_iff {read : Bytes → Bytes × Bool} (shrinks : Shrinks read)
    (text : List Bytes) :
    readLines read text = unlines text ↔ ∀ line ∈ text, read line = (line, true) := by
  induction text with
  | nil => simp [readLines, unlines]
  | cons line text induction =>
      rw [List.forall_mem_cons]
      rcases shrinks line with same | less
      · cases text with
        | nil => simp [readLines, unlines, same]
        | cons next rest =>
            simp only [readLines, unlines, same, if_true, true_and]
            rw [← induction]
            exact List.append_right_inj _
      · have different : read line ≠ (line, true) := by
          intro same
          rw [same] at less
          exact Nat.lt_irrefl _ less
        have shorter : (readLines read (line :: text)).length <
            (unlines (line :: text)).length := by
          cases text with
          | nil => exact less
          | cons next rest =>
              have others := length_readLines_le shrinks (next :: rest)
              have ending : (if (read line).2 then crlf else []).length ≤ crlf.length := by
                split
                · exact Nat.le_refl _
                · exact Nat.zero_le _
              simp only [readLines, unlines, List.length_append] at others ⊢
              omega
        constructor
        · intro same
          rw [same] at shorter
          exact absurd shorter (Nat.lt_irrefl _)
        · rintro ⟨same, _⟩
          exact absurd same different

def Keeps (ending : Bytes) (read : Bytes → Bytes × Bool) : Prop :=
  ∀ front, ∃ kept, read (front ++ ending) = (kept ++ ending, true)

/-- A text is never what is read from itself behind a line that keeps its ending and an empty
line: it would begin with what is read from that line, again and again. -/
theorem text_ne_read {read : Bytes → Bytes × Bool} {ending : Bytes} (noCr : 13 ∉ ending)
    (noLf : 10 ∉ ending) (keeps : Keeps ending read) (empty : read [] = ([], true))
    (front text : Bytes) :
    text ≠ front ++ ending ++ crlf ++ (crlf ++ readLines read (lines text)) := by
  -- what is read is again such a text, and shorter
  induction length : text.length using Nat.strong_induction_on generalizing front text with
  | _ count induction =>
      intro same
      generalize rest_eq : readLines read (lines text) = rest at same
      rcases lines_append_last front noCr noLf with ⟨before, line, _, ended⟩
      rcases keeps line with ⟨kept, read_line⟩
      have split : lines text = (before ++ [line ++ ending, []]) ++ lines rest := by
        rw [same, lines_append, lines_crlf, ended]
        simp
      have again : rest = (readFront read before ++ kept) ++ ending ++ crlf ++
          (crlf ++ readLines read (lines rest)) := by
        rw [split, readLines_append read _ (lines_ne_nil rest)] at rest_eq
        refine rest_eq.symm.trans ?_
        simp [readFront, read_line, empty]
      have shorter : rest.length < count := by
        rw [← length, same]
        simp only [List.length_append, crlf, List.length_cons]
        omega
      exact induction rest.length shorter _ rest rfl again

end MyBookSources.MailText
