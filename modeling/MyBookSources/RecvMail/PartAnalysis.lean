import MyBookSources.RecvMail.Splitting

/-! # Parts of a mail

A part as it is written, with its header fields and its body, and what the parser makes of it.
-/

namespace MyBookSources.RecvMail

open StringUtil (find find_isSome_iff find_append_of_infix)
open MailText (crlf lines)

/-! ## Header fields -/

def Folds (line : Bytes) : Prop := line.head? = some 0x20 ∨ line.head? = some 0x09

instance (line : Bytes) : Decidable (Folds line) := inferInstanceAs (Decidable (_ ∨ _))

structure IsLine (line : Bytes) : Prop where
  filled : line ≠ []
  noCr : 13 ∉ line
  noLf : 10 ∉ line

instance (line : Bytes) : Decidable (IsLine line) :=
  decidable_of_iff (line ≠ [] ∧ 13 ∉ line ∧ 10 ∉ line)
    ⟨fun ⟨filled, noCr, noLf⟩ => ⟨filled, noCr, noLf⟩,
      fun isLine => ⟨isLine.filled, isLine.noCr, isLine.noLf⟩⟩

structure Field where
  line : Bytes
  folded : List Bytes
  isLine : IsLine line
  begins : ¬ Folds line
  folded_isLine : ∀ line ∈ folded, IsLine line
  folded_folds : ∀ line ∈ folded, Folds line

def Field.short (line : Bytes) (isLine : IsLine line) (begins : ¬ Folds line) : Field where
  line := line
  folded := []
  isLine := isLine
  begins := begins
  folded_isLine := fun _ member => absurd member List.not_mem_nil
  folded_folds := fun _ member => absurd member List.not_mem_nil

def Field.lines (field : Field) : List Bytes := field.line :: field.folded

def tagOf (line : Bytes) : Option Bytes :=
  (EMAIL_TAG_LIST.filter fun tag => find tag (stringToUpper line) == some 0).getLast?

theorem tagOf_ne_nil {line tag : Bytes} (matched : tagOf line = some tag) : tag ≠ [] := by
  have member := List.mem_of_getLast? matched
  have listed := List.mem_of_mem_filter member
  have named : ∀ tag ∈ EMAIL_TAG_LIST, tag ≠ [] := by decide
  exact named tag listed

def Field.content (tag : Bytes) (field : Field) : Option Bytes :=
  if tagOf field.line = some tag then
    some (field.line.drop tag.length ++ field.folded.flatten)
  else none

def fieldContent (tag : Bytes) (fields : List Field) : Option Bytes :=
  fields.findSome? (Field.content tag)

def headerLines (fields : List Field) : List Bytes := fields.flatMap Field.lines

theorem IsLine.lines {line : Bytes} (isLine : IsLine line) : lines line = [line] :=
  MailText.lines_of_noCr isLine.noCr

theorem isLine_of_mem_headerLines {fields : List Field} {line : Bytes}
    (member : line ∈ headerLines fields) : IsLine line := by
  rcases List.mem_flatMap.mp member with ⟨field, _, inField⟩
  rcases List.mem_cons.mp inField with rfl | folded
  · exact field.isLine
  · exact field.folded_isLine line folded

/-! ## The tags of a part -/

namespace TagState

theorem matchTag_eq (state : TagState) (line : Bytes) :
    state.matchTag line =
      match tagOf line with
      | some tag => { state with strTag := tag, strContent := line.drop tag.length }
      | none => state := by
  rw [matchTag, tagOf]
  induction EMAIL_TAG_LIST using List.reverseRecOn with
  | nil => rfl
  | append_singleton tags tag induction =>
      rw [List.foldl_append, induction, List.filter_append]
      by_cases matches_tag : find tag (stringToUpper line) = some 0
      · have last : [tag].filter (fun tag => find tag (stringToUpper line) == some 0) = [tag] := by
          simp [matches_tag]
        rw [last, List.getLast?_concat, List.foldl_cons, List.foldl_nil, if_pos matches_tag]
        cases (tags.filter _).getLast? <;> rfl
      · have last : [tag].filter (fun tag => find tag (stringToUpper line) == some 0) = [] := by
          simp [matches_tag]
        rw [last, List.append_nil, List.foldl_cons, List.foldl_nil, if_neg matches_tag]

theorem insert_strTag (state : TagState) : state.insert.strTag = [] := by
  rw [insert]
  split
  · assumption
  · rfl

theorem lookup_insert {state : TagState} {tag content : Bytes}
    (entry : state.mapString.lookup tag = some content) :
    state.insert.mapString.lookup tag = some content := by
  rw [insert]
  split
  · exact entry
  · dsimp only
    split
    · exact entry
    · rw [List.lookup_append, entry]
      rfl

theorem mapString_matchTag (state : TagState) (line : Bytes) :
    (state.matchTag line).mapString = state.mapString := by
  rw [matchTag_eq]
  cases tagOf line <;> rfl

theorem lookup_step {state : TagState} {tag content : Bytes}
    (entry : state.mapString.lookup tag = some content) (last : Bool) (line : Bytes) :
    (state.step last line).mapString.lookup tag = some content := by
  unfold step
  cases line with
  | nil => exact entry
  | cons first rest =>
      dsimp only
      split
      · split
        · exact entry
        · exact entry
      · have matched : ((state.insert.matchTag (first :: rest)).mapString.lookup tag) =
            some content := by
          rw [mapString_matchTag]
          exact lookup_insert entry
        split
        · exact lookup_insert matched
        · exact matched

theorem lookup_loop {tag content : Bytes} (items : List Bytes) {state : TagState}
    (entry : state.mapString.lookup tag = some content) :
    (analyzeTagLoop items state).mapString.lookup tag = some content := by
  induction items generalizing state with
  | nil => exact entry
  | cons item items induction => exact induction (lookup_step entry items.isEmpty item)

def field (state : TagState) (field : Field) : TagState :=
  let state := state.insert.matchTag field.line
  if state.strTag = [] then state
  else { state with strContent := state.strContent ++ field.folded.flatten }

theorem step_begins (state : TagState) (last : Bool) {line : Bytes} (filled : line ≠ [])
    (begins : ¬ Folds line) :
    state.step last line =
      if last then (state.insert.matchTag line).insert else state.insert.matchTag line := by
  cases line with
  | nil => exact absurd rfl filled
  | cons first rest =>
      have other : ¬ (first = 0x20 ∨ first = 0x09) := by
        simpa [Folds] using begins
      rw [step, if_neg other]

theorem step_folds (state : TagState) (last : Bool) {line : Bytes} (folds : Folds line) :
    state.step last line =
      if state.strTag = [] then state
      else { state with strContent := state.strContent ++ line } := by
  cases line with
  | nil => simp [Folds] at folds
  | cons first rest =>
      have blank : first = 0x20 ∨ first = 0x09 := by
        simpa [Folds] using folds
      rw [step, if_pos blank]

theorem loop_folded {folded : List Bytes} (folds : ∀ line ∈ folded, Folds line)
    (rest : List Bytes) (state : TagState) :
    analyzeTagLoop (folded ++ rest) state =
      analyzeTagLoop rest (if state.strTag = [] then state
        else { state with strContent := state.strContent ++ folded.flatten }) := by
  induction folded generalizing state with
  | nil =>
      cases state
      simp
  | cons line folded induction =>
      rw [List.cons_append, analyzeTagLoop, step_folds _ _ (folds line List.mem_cons_self),
        induction fun line member => folds line (List.mem_cons_of_mem _ member)]
      by_cases empty : state.strTag = []
      · simp [empty]
      · simp [empty, List.append_assoc]

theorem loop_field (state : TagState) (field : Field) {rest : List Bytes}
    (further : rest ≠ [] ∨ field.folded ≠ []) :
    analyzeTagLoop (field.lines ++ rest) state = analyzeTagLoop rest (state.field field) := by
  have notLast : (field.folded ++ rest).isEmpty = false := by
    rw [List.isEmpty_eq_false_iff]
    intro empty
    rcases List.append_eq_nil_iff.mp empty with ⟨noFolded, noRest⟩
    exact further.elim (fun some_rest => some_rest noRest) fun some_folded => some_folded noFolded
  rw [Field.lines, List.cons_append, analyzeTagLoop,
    step_begins _ _ field.isLine.filled field.begins, notLast, if_neg (by decide),
    loop_folded field.folded_folds]
  rfl

theorem loop_fields (fields : List Field) {rest : List Bytes} (further : rest ≠ [])
    (state : TagState) :
    analyzeTagLoop (headerLines fields ++ rest) state =
      analyzeTagLoop rest (fields.foldl TagState.field state) := by
  induction fields generalizing state with
  | nil => rfl
  | cons field fields induction =>
      have more : headerLines fields ++ rest ≠ [] := by
        simp [further]
      change analyzeTagLoop (field.lines ++ headerLines fields ++ rest) state = _
      rw [List.append_assoc, loop_field state field (.inl more)]
      exact induction _

theorem lookup_field (state : TagState) (field : Field) (tag : Bytes) :
    (state.field field).insert.mapString.lookup tag =
      (state.insert.mapString.lookup tag).or (field.content tag) := by
  have closed := insert_strTag state
  rw [TagState.field, matchTag_eq, Field.content]
  generalize state.insert = state at closed ⊢
  cases matched : tagOf field.line with
  | none => simp [closed, insert]
  | some own =>
      have named := tagOf_ne_nil matched
      simp only [named, if_false, insert, Option.some.injEq]
      by_cases same : own = tag
      · rw [same, if_pos rfl]
        cases entry : state.mapString.lookup tag <;> simp [entry, List.lookup_append]
      · rw [if_neg same, Option.or_none]
        have different : (tag == own) = false := beq_false_of_ne (Ne.symm same)
        split
        · rfl
        · rw [List.lookup_append, List.lookup_cons, different]
          simp

theorem lookup_fields (fields : List Field) (state : TagState) (tag : Bytes) :
    (fields.foldl TagState.field state).insert.mapString.lookup tag =
      (state.insert.mapString.lookup tag).or (fieldContent tag fields) := by
  induction fields generalizing state with
  | nil => simp [fieldContent]
  | cons field fields induction =>
      rw [List.foldl_cons, induction, lookup_field, Option.or_assoc, fieldContent, fieldContent,
        List.findSome?_cons]
      cases field.content tag <;> rfl

end TagState

/-- The lines behind the fields do not change what the fields say, unless the first of them
continues the last field. -/
theorem analyzeTag_fields {fields : List Field} {rest : List Bytes}
    (filled : [] ∉ rest) (begins : ∀ line ∈ rest.head?, ¬ Folds line)
    (closed : rest = [] → ∀ field ∈ fields.getLast?, field.folded = [])
    {tag content : Bytes} (stated : fieldContent tag fields = some content) :
    (analyzeTag (headerLines fields ++ rest)).lookup tag = some content := by
  have entry : (fields.foldl TagState.field ⟨[], [], []⟩).insert.mapString.lookup tag =
      some content := by
    rw [TagState.lookup_fields, stated]
    rfl
  cases rest with
  | cons line rest =>
      rw [analyzeTag, TagState.loop_fields fields (List.cons_ne_nil line rest), analyzeTagLoop]
      apply TagState.lookup_loop
      rw [TagState.step_begins]
      · have matched := TagState.mapString_matchTag
          (fields.foldl TagState.field ⟨[], [], []⟩).insert line
        split
        · apply TagState.lookup_insert
          rwa [matched]
        · rwa [matched]
      · exact fun empty => filled (by simp [empty])
      · exact begins line rfl
  | nil =>
      rcases List.eq_nil_or_concat fields with rfl | ⟨front, last, rfl⟩
      · cases stated
      · have unfolded : last.folded = [] := closed rfl last (by simp)
        have split : headerLines (front.concat last) ++ [] = headerLines front ++ [last.line] := by
          simp [headerLines, Field.lines, unfolded]
        rw [split, analyzeTag, TagState.loop_fields front (by simp), analyzeTagLoop,
          TagState.step_begins _ _ last.isLine.filled last.begins, analyzeTagLoop]
        simpa [TagState.field, unfolded] using entry

/-! ## Leaves -/

structure Leaf where
  fields : List Field
  body : Bytes

namespace Leaf

def header (leaf : Leaf) : Bytes := MailText.terminated (headerLines leaf.fields)

def text (leaf : Leaf) : Bytes := leaf.header ++ crlf ++ leaf.body

def piece (leaf : Leaf) : Bytes := crlf ++ leaf.text ++ crlf

def bodyLines (leaf : Leaf) : List Bytes := (lines leaf.body).filter fun line => !line.isEmpty

/-- What is decoded: all that is in front of the delimiter, of base64 what is in front of the
first empty line. -/
def encoded (leaf : Leaf) (lEncode : ENCODE_TYPE_ID) : Bytes :=
  match find (crlf ++ crlf) (leaf.body ++ crlf) with
  | some lEnd => if lEncode = .BASE64 then (leaf.body ++ crlf).take lEnd else leaf.body ++ crlf
  | none => leaf.body ++ crlf

/-- What is to be recorded for the leaf, if its type and its encoding are known. -/
def result (platform : Platform) (leaf : Leaf) : Option PartResult := do
  let value ← fieldContent (ascii "CONTENT-TYPE:") leaf.fields
  let encoding ← fieldContent (ascii "CONTENT-TRANSFER-ENCODING:") leaf.fields
  let (lType, strFileName) ← contentType platform value
  let lEncode := contentEncoding encoding
  let strContent := decodeBody platform lEncode (leaf.encoded lEncode)
  if lType = .UNKNOWN ∨ lEncode = .UNKNOWN then none
  else if lType = .APPLICATION then some ⟨lType, [], strContent, strFileName⟩
  else some ⟨lType, bodyText platform lEncode (findCharset (stringToUpper value)) strContent, [],
    strFileName⟩

structure Readable (leaf : Leaf) : Prop where
  tagged : ascii "Content-Type:" <:+: leaf.header
  begins : ∀ line ∈ leaf.bodyLines.head?, ¬ Folds line
  closed : leaf.bodyLines = [] → ∀ field ∈ leaf.fields.getLast?, field.folded = []

theorem readable_of_bodyLines {leaf : Leaf} {line : Bytes} {rest : List Bytes}
    (tagged : ascii "Content-Type:" <:+: leaf.header) (text : leaf.bodyLines = line :: rest)
    (begins : ¬ Folds line) : leaf.Readable where
  tagged := tagged
  begins := by
    rw [text]
    intro first same
    cases same
    exact begins
  closed := by
    rw [text]
    intro empty
    cases empty

theorem headerLines_single (leaf : Leaf) : ∀ line ∈ headerLines leaf.fields, lines line = [line] :=
  fun _ member => (isLine_of_mem_headerLines member).lines

theorem lines_text (leaf : Leaf) :
    lines leaf.text = headerLines leaf.fields ++ [] :: lines leaf.body := by
  rw [text, MailText.lines_append, header, MailText.lines_terminated leaf.headerLines_single]
  simp

theorem splitString_piece (leaf : Leaf) :
    splitString leaf.piece crlf = headerLines leaf.fields ++ leaf.bodyLines := by
  have whole : lines leaf.piece = [] :: (lines leaf.text ++ [[]]) := by
    rw [piece, List.append_assoc, MailText.lines_crlf, ← List.append_nil (_ ++ crlf),
      MailText.lines_append]
    rfl
  have filled : (headerLines leaf.fields).filter (fun line => !line.isEmpty) =
      headerLines leaf.fields := by
    rw [List.filter_eq_self]
    intro line member
    simpa using (isLine_of_mem_headerLines member).filled
  rw [splitString, splitAll_crlf, whole, lines_text, bodyLines]
  simp [filled]

theorem lookup_analyzeTag {leaf : Leaf} (readable : leaf.Readable) {tag content : Bytes}
    (stated : fieldContent tag leaf.fields = some content) :
    (analyzeTag (splitString leaf.piece (ascii "\r\n"))).lookup tag = some content := by
  rw [ascii_crlf, splitString_piece]
  exact analyzeTag_fields (by simp [bodyLines]) readable.begins readable.closed stated

theorem partBody_piece {leaf : Leaf} (readable : leaf.Readable) (lEncode : ENCODE_TYPE_ID) :
    partBody leaf.piece lEncode = some (leaf.encoded lEncode) := by
  have some_line : headerLines leaf.fields ≠ [] := by
    intro none
    have within := readable.tagged
    rw [header, none] at within
    exact absurd (List.infix_nil.mp within) (by decide)
  rcases MailText.exists_terminated leaf.headerLines_single some_line with ⟨front, ends, own⟩
  have split : leaf.piece = (crlf ++ front) ++ (crlf ++ crlf ++ (leaf.body ++ crlf)) := by
    rw [piece, text, header, ends]
    simp
  have front_split : leaf.piece = (crlf ++ leaf.header) ++ (crlf ++ leaf.body ++ crlf) := by
    simp [piece, text]
  have inFront : ascii "Content-Type:" <:+: crlf ++ leaf.header :=
    readable.tagged.trans (List.suffix_append _ _).isInfix
  rcases Option.isSome_iff_exists.mp ((find_isSome_iff _ _).mpr inFront) with ⟨lStart, found⟩
  have within := StringUtil.find_le found
  have start_le : lStart ≤ (crlf ++ front).length := by
    have long : (ascii "Content-Type:").length = 13 := by decide
    have two : crlf.length = 2 := rfl
    rw [header, ends, ← List.append_assoc, List.length_append, long, two] at within
    omega
  have filled : [] ∉ (lines ((crlf ++ front).drop lStart)).tail := by
    intro member
    have line := lines_tail_drop_subset lStart _ member
    rw [MailText.lines_crlf, own] at line
    exact (isLine_of_mem_headerLines line).filled rfl
  have started : findFrom (ascii "Content-Type:") leaf.piece 0 = some lStart := by
    rw [findFrom, if_neg (Nat.not_lt_zero _), List.drop_zero, front_split,
      find_append_of_infix inFront, found]
    rfl
  have ended : findFrom (ascii "\r\n\r\n") leaf.piece lStart = some (crlf ++ front).length := by
    have inPiece : ¬ leaf.piece.length < lStart := by
      rw [split, List.length_append]
      omega
    rw [findFrom, if_neg inPiece, split, List.drop_append_of_le_length start_le, ascii_blank_line,
      find_blank_line filled, List.length_drop, Option.map_some, Nat.sub_add_cancel start_le]
  have behind : leaf.piece.drop ((crlf ++ front).length + 4) = leaf.body ++ crlf := by
    rw [split, ← List.append_assoc, List.drop_left']
    rw [List.length_append]
    rfl
  rw [partBody, started, Option.bind_some, ended]
  dsimp only
  rw [behind, ascii_blank_line, encoded]
  cases find (crlf ++ crlf) (leaf.body ++ crlf) with
  | none => split <;> rfl
  | some lEnd => split <;> rfl

/-- What the parser makes of a leaf. -/
theorem analyzePart_piece {platform : Platform} {leaf : Leaf} (readable : leaf.Readable)
    {part : PartResult} (result : leaf.result platform = some part) :
    analyzePart platform leaf.piece = some part := by
  simp only [Leaf.result, Option.bind_eq_bind, Option.bind_eq_some_iff] at result
  rcases result with ⟨value, typed, encoding, coded, ⟨lType, strFileName⟩, analyzed, result⟩
  dsimp only at result
  split at result
  · cases result
  · next known =>
      rw [analyzePart, lookup_analyzeTag readable typed, lookup_analyzeTag readable coded]
      dsimp only
      rw [analyzed, Option.bind_eq_bind, Option.bind_some, if_neg known,
        partBody_piece readable]
      exact result

end Leaf

end MyBookSources.RecvMail
