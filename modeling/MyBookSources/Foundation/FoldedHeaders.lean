import Mathlib.Data.List.Basic

/-! # Folded headers

A header is a line with a key and the lines below it that continue it. A reader goes through
the lines, keeps the text of the header that is open, and enters it when a line comes that
does not continue it, or when the line that opens it is the last one. The first text of a key
stays.
-/

namespace MyBookSources.FoldedHeaders

/-- How the lines are read: which ones continue a header, the key and the text of one that
opens a header, and what a line adds to the header that it continues. -/
structure Format (Line : Type u) (Key : Type v) (Char : Type w) where
  continues : Line → Bool
  header : Line → Option (Key × List Char)
  more : Line → List Char

structure State (Key : Type v) (Char : Type w) where
  entries : List (Key × List Char)
  current : Option (Key × List Char)

variable {Line : Type u} {Key : Type v} {Char : Type w}

/-! ## The reader -/

section

variable [BEq Key]

def insert (entries : List (Key × List Char)) (key : Key) (text : List Char) :
    List (Key × List Char) :=
  if (entries.lookup key).isSome then entries else entries ++ [(key, text)]

def State.close (state : State Key Char) : State Key Char :=
  match state.current with
  | some (key, text) => ⟨insert state.entries key text, none⟩
  | none => state

def State.append (state : State Key Char) (text : List Char) : State Key Char :=
  { state with current := state.current.map fun current => (current.1, current.2 ++ text) }

def Format.step (format : Format Line Key Char) (state : State Key Char) (last : Bool)
    (line : Line) : State Key Char :=
  if format.continues line then state.append (format.more line)
  else
    let state := { state.close with current := format.header line }
    if last then state.close else state

def Format.run (format : Format Line Key Char) :
    List Line → State Key Char → State Key Char
  | [], state => state
  | line :: rest, state => format.run rest (format.step state rest.isEmpty line)

end

/-! ## What is read -/

namespace Format

variable (format : Format Line Key Char)

/-- The text of the first header with a key, and the lines below it. -/
def first [BEq Key] (key : Key) : List Line → Option (List Char × List Line)
  | [] => none
  | line :: rest =>
      if format.continues line then first key rest
      else
        match format.header line with
        | some (own, text) => if own == key then some (text, rest) else first key rest
        | none => first key rest

def unfolded (text : List Char) (rest : List Line) : List Char :=
  text ++ (rest.takeWhile format.continues).flatMap format.more

def closing (text : List Char) : List Line → Option (List Char)
  | [] => none
  | line :: rest =>
      if format.continues line then closing (text ++ format.more line) rest else some text

/-- What is entered for a header: at once if it is the last line, else when a line ends it. -/
def entered (text : List Char) (rest : List Line) : Option (List Char) :=
  if rest.isEmpty then some text else format.closing text rest

theorem closing_eq (text : List Char) (rest : List Line) :
    format.closing text rest =
      if rest.all format.continues then none else some (format.unfolded text rest) := by
  induction rest generalizing text with
  | nil => rfl
  | cons line rest induction =>
      rw [closing, List.all_cons]
      by_cases continues : format.continues line = true
      · rw [if_pos continues, induction, continues, Bool.true_and]
        simp [unfolded, continues]
      · rw [if_neg continues]
        simp [unfolded, continues]

theorem entered_eq (text : List Char) (rest : List Line) :
    format.entered text rest =
      if rest ≠ [] ∧ rest.all format.continues then none
      else some (format.unfolded text rest) := by
  cases rest with
  | nil => simp [entered, unfolded]
  | cons line rest => simp [entered, closing_eq]

theorem closing_prefix {text whole : List Char} {rest : List Line}
    (closed : format.closing text rest = some whole) : text <+: whole := by
  rw [closing_eq] at closed
  split at closed
  · cases closed
  · cases closed
    exact List.prefix_append _ _

end Format

/-! ## The reader reads what is to be read -/

section

variable [BEq Key]

theorem lookup_insert [LawfulBEq Key] (entries : List (Key × List Char)) (key other : Key)
    (text : List Char) :
    (insert entries key text).lookup other =
      (entries.lookup other).or (if key == other then some text else none) := by
  unfold insert
  by_cases same : key = other
  · subst same
    rw [if_pos (beq_self_eq_true key)]
    cases found : entries.lookup key with
    | some old => simp [found]
    | none => simp [found, List.lookup_append]
  · have others : (other == key) = false := by
      simpa using Ne.symm same
    rw [if_neg (fun equal => same (eq_of_beq equal)), Option.or_none]
    split
    · rfl
    · simp [List.lookup_append, List.lookup_cons, others]

def State.pending (state : State Key Char) (key : Key) : Option (List Char) :=
  match state.current with
  | some (own, text) => if own == key then some text else none
  | none => none

def State.expects (state : State Key Char) (format : Format Line Key Char) (key : Key)
    (lines : List Line) : Option (List Char) :=
  match state.pending key with
  | some text => format.closing text lines
  | none => (format.first key lines).bind fun header => format.entered header.1 header.2

theorem lookup_close [LawfulBEq Key] (state : State Key Char) (key : Key) :
    state.close.entries.lookup key = (state.entries.lookup key).or (state.pending key) := by
  rcases state with ⟨entries, _ | ⟨own, text⟩⟩
  · rw [State.close, State.pending, Option.or_none]
  · rw [State.close, lookup_insert, State.pending]

theorem first_of_opens (format : Format Line Key Char) (key : Key) {line : Line}
    (rest : List Line) (opens : format.continues line = false) :
    format.first key (line :: rest) =
      match format.header line with
      | some (own, text) => if own == key then some (text, rest) else format.first key rest
      | none => format.first key rest := by
  rw [Format.first, opens, if_neg Bool.false_ne_true]

theorem expects_opened (format : Format Line Key Char) (entries : List (Key × List Char))
    (key : Key) {line next : Line} {rest : List Line} (opens : format.continues line = false) :
    State.expects ⟨entries, format.header line⟩ format key (next :: rest) =
      (format.first key (line :: next :: rest)).bind fun header =>
        format.entered header.1 header.2 := by
  rw [State.expects, State.pending, first_of_opens format key _ opens]
  cases format.header line with
  | none => rfl
  | some header =>
      dsimp only
      by_cases same : (header.1 == key) = true
      · rw [if_pos same, if_pos same]
        rfl
      · rw [if_neg same, if_neg same]

theorem pending_opened (format : Format Line Key Char) (entries : List (Key × List Char))
    (key : Key) {line : Line} (opens : format.continues line = false) :
    State.pending ⟨entries, format.header line⟩ key =
      (format.first key [line]).bind fun header => format.entered header.1 header.2 := by
  rw [State.pending, first_of_opens format key _ opens]
  cases format.header line with
  | none => rfl
  | some header =>
      dsimp only
      by_cases same : (header.1 == key) = true
      · rw [if_pos same, if_pos same]
        rfl
      · rw [if_neg same, if_neg same]
        rfl

theorem expects_append (format : Format Line Key Char) (state : State Key Char) (key : Key)
    {line : Line} (rest : List Line) (continues : format.continues line = true) :
    (state.append (format.more line)).expects format key rest =
      state.expects format key (line :: rest) := by
  rcases state with ⟨entries, _ | ⟨own, text⟩⟩
  · simp [State.append, State.expects, State.pending, Format.first, continues]
  · by_cases same : (own == key) = true
    · simp [State.append, State.expects, State.pending, Format.closing, continues, same]
    · simp [State.append, State.expects, State.pending, Format.first, continues, same]

theorem expects_closed (format : Format Line Key Char) (state : State Key Char) (key : Key)
    {line : Line} (rest : List Line) (opens : format.continues line = false) :
    state.expects format key (line :: rest) =
      (state.pending key).or ((format.first key (line :: rest)).bind fun header =>
        format.entered header.1 header.2) := by
  rw [State.expects]
  cases state.pending key with
  | none => rfl
  | some text =>
      dsimp only
      rw [Format.closing, opens, if_neg Bool.false_ne_true, Option.some_or]

theorem expects_nil (format : Format Line Key Char) (state : State Key Char) (key : Key) :
    state.expects format key [] = none := by
  rw [State.expects]
  split <;> rfl

theorem lookup_run [LawfulBEq Key] (format : Format Line Key Char) (lines : List Line)
    (state : State Key Char) (key : Key) :
    (format.run lines state).entries.lookup key =
      (state.entries.lookup key).or (state.expects format key lines) := by
  induction lines generalizing state with
  | nil =>
      rw [Format.run, expects_nil, Option.or_none]
  | cons line rest induction =>
      by_cases continues : format.continues line = true
      · rw [Format.run, induction, Format.step, if_pos continues,
          expects_append format state key rest continues]
        rfl
      · rw [Bool.not_eq_true] at continues
        rw [Format.run, induction, Format.step, continues, if_neg Bool.false_ne_true,
          expects_closed format state key rest continues]
        cases rest with
        | nil =>
            dsimp only
            rw [List.isEmpty_nil, if_pos rfl, expects_nil, Option.or_none, lookup_close,
              lookup_close, Option.or_assoc, pending_opened format _ key continues]
        | cons next rest =>
            dsimp only
            rw [List.isEmpty_cons, if_neg Bool.false_ne_true,
              expects_opened format _ key continues, lookup_close, Option.or_assoc]

/-- What is entered for a key is what is to be entered for the first header with it. -/
theorem lookup_read [LawfulBEq Key] (format : Format Line Key Char) (lines : List Line)
    (key : Key) :
    (format.run lines ⟨[], none⟩).entries.lookup key =
      (format.first key lines).bind fun header => format.entered header.1 header.2 :=
  lookup_run format lines ⟨[], none⟩ key

end

def Format.Passes (format : Format Line Key Char) (key : Key) (line : Line) : Prop :=
  format.continues line = true ∨ ∀ text, format.header line ≠ some (key, text)

theorem first_of_passes [BEq Key] [LawfulBEq Key] (format : Format Line Key Char) {key : Key}
    {line : Line} (passes : format.Passes key line) (rest : List Line) :
    format.first key (line :: rest) = format.first key rest := by
  rw [Format.first]
  split
  · rfl
  · next opens =>
    have others := passes.resolve_left opens
    split
    · next own text same =>
      rw [if_neg]
      intro equal
      rw [eq_of_beq equal] at same
      exact others text same
    · rfl

theorem first_eq_some_iff [BEq Key] [LawfulBEq Key] (format : Format Line Key Char) (key : Key)
    (lines : List Line) (text : List Char) (rest : List Line) :
    format.first key lines = some (text, rest) ↔
      ∃ front line, lines = front ++ line :: rest ∧ format.continues line = false ∧
        format.header line = some (key, text) ∧ ∀ line ∈ front, format.Passes key line := by
  induction lines with
  | nil => simp [Format.first]
  | cons line lines induction =>
      by_cases passes : format.Passes key line
      · rw [first_of_passes format passes, induction]
        constructor
        · rintro ⟨front, own, rfl, opens, header, others⟩
          exact ⟨line :: front, own, rfl, opens, header,
            List.forall_mem_cons.mpr ⟨passes, others⟩⟩
        · rintro ⟨front, own, same, opens, header, others⟩
          cases front with
          | nil =>
              cases same
              rcases passes with continues | other
              · rw [opens] at continues
                cases continues
              · exact absurd header (other text)
          | cons first front =>
              cases same
              exact ⟨front, own, rfl, opens, header, fun line member =>
                others line (List.mem_cons_of_mem _ member)⟩
      · simp only [Format.Passes, not_or, Bool.not_eq_true, not_forall, not_not] at passes
        rcases passes with ⟨opens, own, header⟩
        rw [first_of_opens format key lines opens, header]
        dsimp only
        rw [if_pos (beq_self_eq_true key)]
        constructor
        · rintro same
          cases same
          exact ⟨[], line, rfl, opens, header, by simp⟩
        · rintro ⟨front, other, same, _, otherHeader, others⟩
          cases front with
          | nil =>
              cases same
              rw [header] at otherHeader
              cases otherHeader
              rfl
          | cons first front =>
              cases same
              rcases others line List.mem_cons_self with continues | foreign
              · rw [opens] at continues
                cases continues
              · exact absurd header (foreign own)

/-! ## Two readers -/

/-- Two formats that differ in what continues a header only. A line that continues one opens
none, and adds something to it. -/
structure Comparable (left right : Format Line Key Char) : Prop where
  header : left.header = right.header
  more : left.more = right.more
  leftOpens : ∀ line, left.continues line = true → left.header line = none
  rightOpens : ∀ line, right.continues line = true → left.header line = none
  adds : ∀ line, left.continues line ≠ right.continues line → left.more line ≠ []

/-- Behind lines that continue the header for both, a line continues it for one only. -/
def Diverge (left right : Format Line Key Char) (rest : List Line) : Prop :=
  ∃ folded line after, rest = folded ++ line :: after ∧
    (∀ line ∈ folded, left.continues line = true ∧ right.continues line = true) ∧
    left.continues line ≠ right.continues line

theorem diverge_cons_iff (left right : Format Line Key Char) (line : Line) (rest : List Line) :
    Diverge left right (line :: rest) ↔
      left.continues line ≠ right.continues line ∨
        (left.continues line = true ∧ right.continues line = true ∧ Diverge left right rest) := by
  constructor
  · rintro ⟨folded, other, after, same, both, differs⟩
    cases folded with
    | nil =>
        cases same
        exact .inl differs
    | cons first folded =>
        cases same
        have own := both line List.mem_cons_self
        exact .inr ⟨own.1, own.2, folded, other, after, rfl,
          fun later member => both later (List.mem_cons_of_mem _ member), differs⟩
  · rintro (differs | ⟨own, others, folded, other, after, rfl, both, differs⟩)
    · exact ⟨[], line, rest, rfl, by simp, differs⟩
    · refine ⟨line :: folded, other, after, rfl, ?_, differs⟩
      intro member inside
      rcases List.mem_cons.mp inside with rfl | inside
      · exact ⟨own, others⟩
      · exact both member inside

section

variable {left right : Format Line Key Char}

theorem closing_append_ne (format : Format Line Key Char) {text added : List Char}
    (some_char : added ≠ []) (rest : List Line) :
    format.closing (text ++ added) rest ≠ some text := by
  intro closed
  have longer := (format.closing_prefix closed).length_le
  have positive := List.length_pos_iff.mpr some_char
  rw [List.length_append] at longer
  omega

theorem closing_eq_iff (comparable : Comparable left right) (text : List Char)
    (rest : List Line) :
    left.closing text rest = right.closing text rest ↔ ¬ Diverge left right rest := by
  induction rest generalizing text with
  | nil =>
      refine iff_of_true rfl ?_
      rintro ⟨folded, line, after, same, _⟩
      exact absurd same.symm (by simp)
  | cons line rest induction =>
      have added := comparable.adds line
      rw [diverge_cons_iff, Format.closing, Format.closing, ← comparable.more]
      cases own : left.continues line <;> cases others : right.continues line
      · simp
      · rw [own, others] at added
        refine iff_of_false ?_ (by simp)
        intro same
        exact closing_append_ne right (added (by decide)) rest same.symm
      · rw [own, others] at added
        refine iff_of_false ?_ (by simp)
        intro same
        exact closing_append_ne left (added (by decide)) rest same
      · simpa using induction (text ++ left.more line)

theorem entered_eq_iff (comparable : Comparable left right) (text : List Char)
    (rest : List Line) :
    left.entered text rest = right.entered text rest ↔ ¬ Diverge left right rest := by
  rw [← closing_eq_iff comparable text rest]
  cases rest with
  | nil => exact iff_of_true rfl rfl
  | cons line rest => exact Iff.rfl

variable [BEq Key]

theorem first_eq (comparable : Comparable left right) (key : Key) (lines : List Line) :
    left.first key lines = right.first key lines := by
  induction lines with
  | nil => rfl
  | cons line rest induction =>
      rw [Format.first, Format.first, ← comparable.header, induction]
      by_cases own : left.continues line = true
      · rw [if_pos own, comparable.leftOpens line own, ite_self]
      · rw [if_neg own]
        by_cases others : right.continues line = true
        · rw [if_pos others, comparable.rightOpens line others]
        · rw [if_neg others]

/-- Two readers enter the same texts exactly if they agree on the lines below the first header
of each key. -/
theorem lookup_eq_iff [LawfulBEq Key] (comparable : Comparable left right) (lines : List Line) :
    (∀ key, (left.run lines ⟨[], none⟩).entries.lookup key =
        (right.run lines ⟨[], none⟩).entries.lookup key) ↔
      ∀ key text rest, left.first key lines = some (text, rest) → ¬ Diverge left right rest := by
  constructor
  · intro same key text rest found
    have own := same key
    rw [lookup_read, lookup_read, ← first_eq comparable, found] at own
    exact (entered_eq_iff comparable text rest).mp own
  · intro agree key
    rw [lookup_read, lookup_read, ← first_eq comparable]
    cases found : left.first key lines with
    | none => rfl
    | some header =>
        exact (entered_eq_iff comparable header.1 header.2).mpr (agree key _ _ found)

end

end MyBookSources.FoldedHeaders
