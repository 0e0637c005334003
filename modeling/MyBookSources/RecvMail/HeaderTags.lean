import MyBookSources.Foundation.FoldedHeaders
import MyBookSources.RecvMail.PartAnalysis

/-! # The tags of a header

`analyzeTags` reads the header of a mail and `analyzeTag` that of a part, each with its own
copy of one loop. They differ in what they take for a line that continues the one above.
-/

namespace MyBookSources.RecvMail

open FoldedHeaders (Format State)
open StringUtil (find)

/-! ## The header of a mail -/

/-- A line of the header; a second byte behind the end of a line is its final zero. -/
def TagState.stepTags (state : TagState) (last : Bool) (strItem : Bytes) : TagState :=
  match strItem with
  | [] => state
  | first :: rest =>
      if first = 0x20 ∨ rest.headD 0 = 0x09 then
        if state.strTag = [] then state
        else { state with strContent := state.strContent ++ strItem }
      else
        let state := state.insert.matchTag strItem
        if last then state.insert else state

def analyzeTagsLoop : List Bytes → TagState → TagState
  | [], state => state
  | strItem :: rest, state => analyzeTagsLoop rest (state.stepTags rest.isEmpty strItem)

def analyzeTags (vecString : List Bytes) : List (Bytes × Bytes) :=
  (analyzeTagsLoop vecString ⟨[], [], []⟩).mapString

/-! ## Both loops as readers of folded headers -/

/-- A line that `analyzeTags` does not look at for a tag. -/
def continuesTags (line : Bytes) : Bool :=
  line.isEmpty || line.headD 0 == 0x20 || line.tail.headD 0 == 0x09

/-- A line that `analyzeTag` does not look at for a tag. -/
def continuesTag (line : Bytes) : Bool :=
  line.isEmpty || line.headD 0 == 0x20 || line.headD 0 == 0x09

def tagFormat (continues : Bytes → Bool) : Format Bytes Bytes Byte where
  continues := continues
  header line := (tagOf line).map fun tag => (tag, line.drop tag.length)
  more line := line

namespace TagState

/-- The state as that of a reader: without a tag no header is open. -/
def reader (state : TagState) : State Bytes Byte where
  entries := state.mapString
  current := if state.strTag = [] then none else some (state.strTag, state.strContent)

theorem reader_insert (state : TagState) : state.insert.reader = state.reader.close := by
  by_cases untagged : state.strTag = []
  · simp [insert, reader, State.close, untagged]
  · rw [insert, if_neg untagged, reader, reader, State.close, if_neg untagged, if_pos rfl]
    rfl

theorem reader_matchTag {state : TagState} (closed : state.strTag = []) (line : Bytes) :
    (state.matchTag line).reader =
      ⟨state.mapString, (tagOf line).map fun tag => (tag, line.drop tag.length)⟩ := by
  rw [matchTag_eq]
  cases found : tagOf line with
  | none => simp [reader, closed]
  | some tag => simp [reader, tagOf_ne_nil found]

theorem reader_append (state : TagState) (line : Bytes) :
    (if state.strTag = [] then state
      else { state with strContent := state.strContent ++ line }).reader =
      state.reader.append line := by
  by_cases untagged : state.strTag = []
  · simp [reader, State.append, untagged]
  · simp [reader, State.append, untagged]

theorem reader_open (state : TagState) (last : Bool) (line : Bytes) :
    (if last then (state.insert.matchTag line).insert
      else state.insert.matchTag line).reader =
      if last then
        ({ state.reader.close with
          current := (tagOf line).map fun tag => (tag, line.drop tag.length) } :
          State Bytes Byte).close
      else
        { state.reader.close with
          current := (tagOf line).map fun tag => (tag, line.drop tag.length) } := by
  have matched : (state.insert.matchTag line).reader =
      { state.reader.close with
        current := (tagOf line).map fun tag => (tag, line.drop tag.length) } := by
    rw [reader_matchTag (insert_strTag state), ← reader_insert]
    rfl
  split
  · rw [reader_insert, matched]
  · exact matched

theorem reader_stepTags (state : TagState) (last : Bool) (line : Bytes) :
    (state.stepTags last line).reader = (tagFormat continuesTags).step state.reader last line := by
  cases line with
  | nil =>
      have added := reader_append state []
      simp only [List.append_nil, ite_self] at added
      exact added
  | cons first rest =>
      rw [stepTags, Format.step]
      by_cases folds : first = 0x20 ∨ rest.headD 0 = 0x09
      · have continues : continuesTags (first :: rest) = true := by
          simpa [continuesTags] using folds
        rw [if_pos folds]
        exact (reader_append state (first :: rest)).trans (if_pos continues).symm
      · have opens : ¬ continuesTags (first :: rest) = true := by
          simpa [continuesTags] using folds
        rw [if_neg folds]
        exact (reader_open state last (first :: rest)).trans (if_neg opens).symm

theorem reader_step (state : TagState) (last : Bool) (line : Bytes) :
    (state.step last line).reader = (tagFormat continuesTag).step state.reader last line := by
  cases line with
  | nil =>
      have added := reader_append state []
      simp only [List.append_nil, ite_self] at added
      exact added
  | cons first rest =>
      rw [step, Format.step]
      by_cases folds : first = 0x20 ∨ first = 0x09
      · have continues : continuesTag (first :: rest) = true := by
          simpa [continuesTag] using folds
        rw [if_pos folds]
        exact (reader_append state (first :: rest)).trans (if_pos continues).symm
      · have opens : ¬ continuesTag (first :: rest) = true := by
          simpa [continuesTag] using folds
        rw [if_neg folds]
        exact (reader_open state last (first :: rest)).trans (if_neg opens).symm

theorem reader_analyzeTagsLoop (lines : List Bytes) (state : TagState) :
    (analyzeTagsLoop lines state).reader = (tagFormat continuesTags).run lines state.reader := by
  induction lines generalizing state with
  | nil => rfl
  | cons line rest induction => rw [analyzeTagsLoop, induction, reader_stepTags, Format.run]

theorem reader_analyzeTagLoop (lines : List Bytes) (state : TagState) :
    (analyzeTagLoop lines state).reader = (tagFormat continuesTag).run lines state.reader := by
  induction lines generalizing state with
  | nil => rfl
  | cons line rest induction => rw [analyzeTagLoop, induction, reader_step, Format.run]

end TagState

theorem analyzeTags_eq (vecString : List Bytes) :
    analyzeTags vecString = ((tagFormat continuesTags).run vecString ⟨[], none⟩).entries :=
  congrArg State.entries (TagState.reader_analyzeTagsLoop vecString ⟨[], [], []⟩)

theorem analyzeTag_eq (vecString : List Bytes) :
    analyzeTag vecString = ((tagFormat continuesTag).run vecString ⟨[], none⟩).entries :=
  congrArg State.entries (TagState.reader_analyzeTagLoop vecString ⟨[], [], []⟩)

/-! ## Tags -/

def StartsWith (tag line : Bytes) : Prop := tag <+: stringToUpper line

instance (tag line : Bytes) : Decidable (StartsWith tag line) :=
  inferInstanceAs (Decidable (tag <+: stringToUpper line))

theorem find_eq_zero_iff (pattern text : Bytes) :
    find pattern text = some 0 ↔ pattern <+: text := by
  constructor
  · intro found
    have split := StringUtil.find_split found
    rw [List.take_zero, List.nil_append] at split
    exact ⟨_, split⟩
  · exact StringUtil.find_of_isPrefix

theorem tagOf_eq_some_iff (line tag : Bytes) :
    tagOf line = some tag ↔ tag ∈ EMAIL_TAG_LIST ∧ StartsWith tag line := by
  have distinct : ∀ tag ∈ EMAIL_TAG_LIST, ∀ other ∈ EMAIL_TAG_LIST, tag <+: other →
      tag = other := by
    decide
  have started : ∀ tag, tagOf line = some tag → tag ∈ EMAIL_TAG_LIST ∧ StartsWith tag line := by
    intro tag found
    have member := List.mem_filter.mp (List.mem_of_getLast? found)
    exact ⟨member.1, (find_eq_zero_iff tag _).mp (by simpa using member.2)⟩
  constructor
  · exact started tag
  · rintro ⟨listed, starts⟩
    have inFilter : tag ∈ EMAIL_TAG_LIST.filter fun tag =>
        find tag (stringToUpper line) == some 0 :=
      List.mem_filter.mpr ⟨listed, by simpa using (find_eq_zero_iff tag _).mpr starts⟩
    cases found : tagOf line with
    | none =>
        rw [tagOf, List.getLast?_eq_none_iff] at found
        rw [found] at inFilter
        cases inFilter
    | some other =>
        have others := started other found
        rcases List.prefix_or_prefix_of_prefix starts others.2 with front | front
        · rw [distinct tag listed other others.1 front]
        · rw [distinct other others.1 tag listed front]

theorem opens_of_startsWith {tag line : Bytes} (listed : tag ∈ EMAIL_TAG_LIST)
    (starts : StartsWith tag line) :
    continuesTags line = false ∧ continuesTag line = false := by
  have letters : ∀ tag ∈ EMAIL_TAG_LIST, 2 ≤ tag.length ∧ tag.headD 0 ≠ 0x20 ∧
      tag.headD 0 ≠ 0x09 ∧ tag.tail.headD 0 ≠ 0x09 := by
    decide
  rcases letters tag listed with ⟨long, noBlank, noTab, noTab2⟩
  rcases tag with _ | ⟨first, _ | ⟨second, tag⟩⟩
  · simp at long
  · simp at long
  · rcases line with _ | ⟨char, _ | ⟨next, line⟩⟩
    · exact absurd (List.prefix_nil.mp starts) (List.cons_ne_nil _ _)
    · exact absurd (List.prefix_nil.mp (List.cons_prefix_cons.mp starts).2) (List.cons_ne_nil _ _)
    · rcases List.cons_prefix_cons.mp starts with ⟨rfl, rest⟩
      rcases List.cons_prefix_cons.mp rest with ⟨rfl, _⟩
      have blank : char ≠ 0x20 := by
        rintro rfl
        exact noBlank rfl
      have tab : char ≠ 0x09 := by
        rintro rfl
        exact noTab rfl
      have tab2 : next ≠ 0x09 := by
        rintro rfl
        exact noTab2 rfl
      simp [continuesTags, continuesTag, blank, tab, tab2]

theorem header_eq_some_iff (continues : Bytes → Bool) (key text line : Bytes) :
    (tagFormat continues).header line = some (key, text) ↔
      key ∈ EMAIL_TAG_LIST ∧ StartsWith key line ∧ text = line.drop key.length := by
  constructor
  · intro found
    rcases Option.map_eq_some_iff.mp found with ⟨tag, own, same⟩
    cases same
    rcases (tagOf_eq_some_iff line key).mp own with ⟨listed, starts⟩
    exact ⟨listed, starts, rfl⟩
  · rintro ⟨listed, starts, rfl⟩
    exact Option.map_eq_some_iff.mpr
      ⟨key, (tagOf_eq_some_iff line key).mpr ⟨listed, starts⟩, rfl⟩

/-- The first line that starts with a tag, between the lines in front of it and below it. -/
structure FirstWith (tag : Bytes) (lines front : List Bytes) (line : Bytes)
    (below : List Bytes) : Prop where
  lines_eq : lines = front ++ line :: below
  starts : StartsWith tag line
  others : ∀ line ∈ front, ¬ StartsWith tag line

section

variable {continues : Bytes → Bool}
  (opens : ∀ tag ∈ EMAIL_TAG_LIST, ∀ line, StartsWith tag line → continues line = false)

include opens in
theorem header_of_continues (line : Bytes) (folds : continues line = true) :
    (tagFormat continues).header line = none := by
  cases found : (tagFormat continues).header line with
  | none => rfl
  | some header =>
      rcases (header_eq_some_iff continues header.1 header.2 line).mp found with
        ⟨listed, starts, _⟩
      rw [opens header.1 listed line starts] at folds
      cases folds

include opens in
theorem first_eq_some_iff_firstWith (key text : Bytes) (lines below : List Bytes) :
    (tagFormat continues).first key lines = some (text, below) ↔
      key ∈ EMAIL_TAG_LIST ∧ ∃ front line, FirstWith key lines front line below ∧
        text = line.drop key.length := by
  rw [FoldedHeaders.first_eq_some_iff]
  constructor
  · rintro ⟨front, line, same, _, header, others⟩
    rcases (header_eq_some_iff continues key text line).mp header with ⟨listed, starts, rfl⟩
    refine ⟨listed, front, line, ⟨same, starts, ?_⟩, rfl⟩
    intro other member started
    rcases others other member with folds | foreign
    · have absent := header_of_continues opens other folds
      rw [(header_eq_some_iff continues key _ other).mpr ⟨listed, started, rfl⟩] at absent
      cases absent
    · exact foreign _ ((header_eq_some_iff continues key _ other).mpr ⟨listed, started, rfl⟩)
  · rintro ⟨listed, front, line, first, rfl⟩
    refine ⟨front, line, first.lines_eq, opens key listed line first.starts,
      (header_eq_some_iff continues key _ line).mpr ⟨listed, first.starts, rfl⟩, ?_⟩
    intro other member
    refine .inr fun text header => first.others other member ?_
    exact ((header_eq_some_iff continues key text other).mp header).2.1

end

/-! ## The two functions -/

/-- A line that exactly one of the functions takes for a continuation: a tab at its front with
no other behind it, or a tab behind a byte that is neither a blank nor a tab. -/
def Disputed (line : Bytes) : Prop :=
  line.headD 0 ≠ 0x20 ∧ (line.headD 0 = 0x09 ↔ line.tail.headD 0 ≠ 0x09)

/-- A line that both take for a continuation, or step over. -/
def FoldsForBoth (line : Bytes) : Prop :=
  line = [] ∨ line.headD 0 = 0x20 ∨ (line.headD 0 = 0x09 ∧ line.tail.headD 0 = 0x09)

theorem disputed_iff (line : Bytes) :
    continuesTags line ≠ continuesTag line ↔ Disputed line := by
  unfold Disputed
  cases line with
  | nil => simp [continuesTags, continuesTag]
  | cons first rest =>
      simp only [continuesTags, continuesTag, List.isEmpty_cons, Bool.false_or, List.headD_cons,
        List.tail_cons]
      by_cases blank : first = 0x20
      · rw [blank]
        simp
      · rw [beq_false_of_ne blank, Bool.false_or, Bool.false_or, ne_eq, Bool.eq_iff_iff,
          beq_iff_eq, beq_iff_eq]
        tauto

theorem foldsForBoth_iff (line : Bytes) :
    continuesTags line = true ∧ continuesTag line = true ↔ FoldsForBoth line := by
  unfold FoldsForBoth
  rw [continuesTags, continuesTag, Bool.or_eq_true, Bool.or_eq_true, Bool.or_eq_true,
    Bool.or_eq_true, List.isEmpty_iff, beq_iff_eq, beq_iff_eq, beq_iff_eq]
  tauto

theorem comparable_tags :
    FoldedHeaders.Comparable (tagFormat continuesTags) (tagFormat continuesTag) where
  header := rfl
  more := rfl
  leftOpens := header_of_continues fun _ listed _ starts =>
    (opens_of_startsWith listed starts).1
  rightOpens := @header_of_continues continuesTag fun _ listed _ starts =>
    (opens_of_startsWith listed starts).2
  adds line differs empty := by
    change line = [] at empty
    rw [empty] at differs
    exact differs rfl

/-- The two functions make the same map of a list of lines exactly if no disputed line stands
below the first line with a tag, with nothing but lines in between that both take for
continuations. -/
theorem analyzeTags_agrees_iff (vecString : List Bytes) :
    (∀ key, (analyzeTags vecString).lookup key = (analyzeTag vecString).lookup key) ↔
      ∀ tag ∈ EMAIL_TAG_LIST, ∀ front line folded disputed after,
        FirstWith tag vecString front line (folded ++ disputed :: after) →
        (∀ line ∈ folded, FoldsForBoth line) → ¬ Disputed disputed := by
  rw [analyzeTags_eq, analyzeTag_eq, FoldedHeaders.lookup_eq_iff comparable_tags]
  constructor
  · intro agree tag listed front line folded disputed after first both differs
    have found := (first_eq_some_iff_firstWith
      (fun _ listed _ starts => (opens_of_startsWith listed starts).1) tag _ vecString _).mpr
      ⟨listed, front, line, first, rfl⟩
    exact agree tag _ _ found ⟨folded, disputed, after, rfl,
      fun line member => (foldsForBoth_iff line).mpr (both line member),
      (disputed_iff disputed).mpr differs⟩
  · rintro agree key text rest found ⟨folded, disputed, after, rfl, both, differs⟩
    rcases (first_eq_some_iff_firstWith
      (fun _ listed _ starts => (opens_of_startsWith listed starts).1) key text vecString _).mp
      found with ⟨listed, front, line, first, _⟩
    exact agree key listed front line folded disputed after first
      (fun line member => (foldsForBoth_iff line).mp (both line member))
      ((disputed_iff disputed).mp differs)

/-- A subject that goes on behind a tab is cut by one function only. -/
theorem tab_folded_subject_differs :
    (analyzeTags [ascii "Subject: a", ascii "\tb", ascii "X: c"]).lookup (ascii "SUBJECT:") =
        some (ascii " a") ∧
      (analyzeTag [ascii "Subject: a", ascii "\tb", ascii "X: c"]).lookup (ascii "SUBJECT:") =
        some (ascii " a\tb") := by
  decide +kernel

/-! ## What is to be found -/

/-- The text behind a tag in the first line that starts with it, with all the continuation
lines directly below. -/
def unfoldedHeader (vecString : List Bytes) (tag : Bytes) : Option Bytes :=
  match vecString.dropWhile fun line => !decide (StartsWith tag line) with
  | [] => none
  | line :: below =>
      some (line.drop tag.length ++ (below.takeWhile fun line => decide (Folds line)).flatten)

/-- The list ends with continuation lines directly below the first line with a tag. -/
def EndsFolded (vecString : List Bytes) : Prop :=
  ∃ tag ∈ EMAIL_TAG_LIST, ∃ front line folded, FirstWith tag vecString front line folded ∧
    folded ≠ [] ∧ ∀ line ∈ folded, Folds line

theorem unfoldedHeader_of_first {tag : Bytes} {vecString front below : List Bytes}
    {line : Bytes} (first : FirstWith tag vecString front line below) :
    unfoldedHeader vecString tag =
      some (line.drop tag.length ++ (below.takeWhile fun line => decide (Folds line)).flatten) := by
  have others : ∀ line ∈ front, (!decide (StartsWith tag line)) = true := by
    intro other member
    simp [first.others other member]
  rw [unfoldedHeader, first.lines_eq, List.dropWhile_append_of_pos others,
    List.dropWhile_cons_of_neg (by simp [first.starts])]

theorem exists_firstWith_or (tag : Bytes) (vecString : List Bytes) :
    (∃ front line below, FirstWith tag vecString front line below) ∨
      unfoldedHeader vecString tag = none := by
  cases found : vecString.dropWhile fun line => !decide (StartsWith tag line) with
  | nil =>
      right
      rw [unfoldedHeader, found]
  | cons line below =>
      left
      refine ⟨vecString.takeWhile fun line => !decide (StartsWith tag line), line, below, ?_, ?_,
        ?_⟩
      · rw [← found, List.takeWhile_append_dropWhile]
      · have stops := List.head?_dropWhile_not (fun line => !decide (StartsWith tag line)) vecString
        rw [found] at stops
        simpa using stops
      · intro other member
        simpa using List.mem_takeWhile_imp member

theorem continuesTag_of_filled {line : Bytes} (filled : line ≠ []) :
    continuesTag line = decide (Folds line) := by
  cases line with
  | nil => exact absurd rfl filled
  | cons first rest => simp [continuesTag, Folds, Bool.beq_eq_decide_eq]

theorem takeWhile_continuesTag {below : List Bytes} (filled : [] ∉ below) :
    below.takeWhile continuesTag = below.takeWhile fun line => decide (Folds line) := by
  induction below with
  | nil => rfl
  | cons line below induction =>
      rw [List.mem_cons, not_or] at filled
      rw [List.takeWhile_cons, List.takeWhile_cons, continuesTag_of_filled (Ne.symm filled.1),
        induction filled.2]

theorem all_continuesTag_iff {below : List Bytes} (filled : [] ∉ below) :
    below.all continuesTag = true ↔ ∀ line ∈ below, Folds line := by
  rw [List.all_eq_true]
  have same : ∀ line ∈ below, (continuesTag line = true ↔ Folds line) := by
    intro line member
    rw [continuesTag_of_filled (fun empty => filled (empty ▸ member)), decide_eq_true_iff]
  constructor
  · intro all line member
    exact (same line member).mp (all line member)
  · intro all line member
    exact (same line member).mpr (all line member)

theorem lookup_analyzeTag_of_first {vecString front below : List Bytes} {tag line : Bytes}
    (listed : tag ∈ EMAIL_TAG_LIST) (filled : [] ∉ vecString)
    (first : FirstWith tag vecString front line below) :
    (analyzeTag vecString).lookup tag =
      if below ≠ [] ∧ ∀ line ∈ below, Folds line then none
      else unfoldedHeader vecString tag := by
  have found := (first_eq_some_iff_firstWith
    (fun _ listed _ starts => (opens_of_startsWith listed starts).2) tag _ vecString below).mpr
    ⟨listed, front, line, first, rfl⟩
  have filledBelow : [] ∉ below := by
    intro member
    apply filled
    rw [first.lines_eq]
    simp [member]
  have whole : (tagFormat continuesTag).unfolded (line.drop tag.length) below =
      line.drop tag.length ++ (below.takeWhile fun line => decide (Folds line)).flatten := by
    rw [← takeWhile_continuesTag filledBelow, Format.unfolded]
    exact congrArg _ List.flatMap_id
  rw [analyzeTag_eq, FoldedHeaders.lookup_read, found, Option.bind_some, Format.entered_eq,
    unfoldedHeader_of_first first, whole]
  by_cases lost : below ≠ [] ∧ ∀ line ∈ below, Folds line
  · rw [if_pos lost]
    exact if_pos ⟨lost.1, (all_continuesTag_iff filledBelow).mpr lost.2⟩
  · rw [if_neg lost]
    apply if_neg
    rintro ⟨some_line, all⟩
    exact lost ⟨some_line, (all_continuesTag_iff filledBelow).mp all⟩

theorem lookup_analyzeTag_of_not_listed {tag : Bytes} (foreign : tag ∉ EMAIL_TAG_LIST)
    (vecString : List Bytes) : (analyzeTag vecString).lookup tag = none := by
  rw [analyzeTag_eq, FoldedHeaders.lookup_read]
  cases found : (tagFormat continuesTag).first tag vecString with
  | none => rfl
  | some header =>
      have started := (first_eq_some_iff_firstWith
        (fun _ listed _ starts => (opens_of_startsWith listed starts).2) tag header.1 vecString
        header.2).mp found
      exact absurd started.1 foreign

theorem lookup_analyzeTag_of_absent {tag : Bytes} {vecString : List Bytes}
    (absent : ¬ ∃ front line below, FirstWith tag vecString front line below) :
    (analyzeTag vecString).lookup tag = none := by
  rw [analyzeTag_eq, FoldedHeaders.lookup_read]
  cases found : (tagFormat continuesTag).first tag vecString with
  | none => rfl
  | some header =>
      rcases (first_eq_some_iff_firstWith
        (fun _ listed _ starts => (opens_of_startsWith listed starts).2) tag header.1 vecString
        header.2).mp found with ⟨_, front, line, first, _⟩
      exact absurd ⟨front, line, header.2, first⟩ absent

/-- `analyzeTag` finds the unfolded headers and nothing else exactly if the list does not end
in a folded header that is the first one with its tag. -/
theorem analyzeTag_unfolds_iff {vecString : List Bytes} (filled : [] ∉ vecString) :
    (∀ key, (analyzeTag vecString).lookup key =
      if key ∈ EMAIL_TAG_LIST then unfoldedHeader vecString key else none) ↔
      ¬ EndsFolded vecString := by
  constructor
  · rintro found ⟨tag, listed, front, line, folded, first, some_line, folds⟩
    have lost := found tag
    rw [lookup_analyzeTag_of_first listed filled first, if_pos ⟨some_line, folds⟩,
      if_pos listed, unfoldedHeader_of_first first] at lost
    cases lost
  · intro ends key
    by_cases listed : key ∈ EMAIL_TAG_LIST
    · rw [if_pos listed]
      rcases exists_firstWith_or key vecString with ⟨front, line, below, first⟩ | absent
      · rw [lookup_analyzeTag_of_first listed filled first, if_neg]
        rintro ⟨some_line, folds⟩
        exact ends ⟨key, listed, front, line, below, first, some_line, folds⟩
      · rw [absent]
        apply lookup_analyzeTag_of_absent
        rintro ⟨front, line, below, first⟩
        rw [unfoldedHeader_of_first first] at absent
        cases absent
    · rw [if_neg listed]
      exact lookup_analyzeTag_of_not_listed listed vecString

/-- Two headers, the first of which is folded. -/
theorem analyzeTag_unfolds_subject :
    [] ∉ [ascii "Subject: a", ascii " b", ascii "From: c"] ∧
      ((∀ key, (analyzeTag [ascii "Subject: a", ascii " b", ascii "From: c"]).lookup key =
        if key ∈ EMAIL_TAG_LIST then
          unfoldedHeader [ascii "Subject: a", ascii " b", ascii "From: c"] key else none) ↔
        ¬ EndsFolded [ascii "Subject: a", ascii " b", ascii "From: c"]) :=
  ⟨by decide, analyzeTag_unfolds_iff (by decide)⟩

/-- A folded header at the end of the list is lost. -/
theorem folded_last_header_lost :
    [] ∉ [ascii "From: a", ascii " b"] ∧
      (analyzeTag [ascii "From: a", ascii " b"]).lookup (ascii "FROM:") = none ∧
      unfoldedHeader [ascii "From: a", ascii " b"] (ascii "FROM:") = some (ascii " a b") := by
  decide +kernel

end MyBookSources.RecvMail
