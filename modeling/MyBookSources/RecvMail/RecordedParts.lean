import MyBookSources.RecvMail.PartCollection

/-! # Every part once

When `analyzeBody` records each leaf of a nested mail exactly once, and nothing else.
-/

namespace MyBookSources.RecvMail

open StringUtil (find)
open MailText (crlf)

namespace PartResult

def plain (part : PartResult) : Option Wide :=
  if part.lType = .PLAIN then some part.strResult else none

def html (part : PartResult) : Option Wide :=
  if part.lType = .HTML then some part.strResult else none

def attachment (part : PartResult) : Option (Wide × Bytes) :=
  if part.lType = .APPLICATION then some (part.strFileName, part.strAttachment) else none

/-- The part has a type and, unless it is an attachment, a text. -/
def Recordable (part : PartResult) : Prop :=
  part.lType ≠ .UNKNOWN ∧ (part.strResult = [] → part.lType = .APPLICATION)

theorem Recordable.count {part : PartResult} (recordable : part.Recordable) :
    part.plain.toList.length + part.html.toList.length + part.attachment.toList.length = 1 := by
  rw [plain, html, attachment]
  cases type : part.lType with
  | UNKNOWN => exact absurd type recordable.1
  | PLAIN => rfl
  | HTML => rfl
  | APPLICATION => rfl

theorem count_parts {parts : List PartResult} (recordable : ∀ part ∈ parts, part.Recordable) :
    (parts.filterMap plain).length + (parts.filterMap html).length +
      (parts.filterMap attachment).length = parts.length := by
  induction parts with
  | nil => rfl
  | cons part parts induction =>
      have own := (recordable part List.mem_cons_self).count
      have further := induction fun other member => recordable other (List.mem_cons_of_mem _ member)
      have split {entries : Type} (entry : PartResult → Option entries) :
          ((part :: parts).filterMap entry).length =
            (entry part).toList.length + (parts.filterMap entry).length := by
        cases found : entry part <;> simp [found, Nat.add_comm]
      rw [split, split, split, List.length_cons]
      omega

end PartResult

namespace MailHelper

/-! ## The lists -/

theorem record_lists {platform : Platform} {helper : MailHelper} {part : PartResult}
    (recordable : part.Recordable)
    (new : ∀ entry ∈ part.attachment, entry.1 ∉ helper.vecAttachment.map Prod.fst) :
    (helper.record platform part).vecText = helper.vecText ++ part.plain.toList ∧
      (helper.record platform part).vecHTML = helper.vecHTML ++ part.html.toList ∧
      (helper.record platform part).vecAttachment =
        helper.vecAttachment ++ part.attachment.toList := by
  have kept : ¬ (part.strResult.isEmpty = true ∧ part.lType ≠ .APPLICATION) := by
    rintro ⟨empty, other⟩
    exact other (recordable.2 (List.isEmpty_iff.mp empty))
  rw [record, if_neg kept, PartResult.plain, PartResult.html, PartResult.attachment]
  rw [PartResult.attachment] at new
  cases type : part.lType with
  | UNKNOWN => exact absurd type recordable.1
  | PLAIN => simp
  | HTML => simp
  | APPLICATION =>
      rw [type] at new
      have unused : helper.vecAttachment.lookup part.strFileName = none := by
        rw [List.lookup_eq_none_iff]
        intro entry member
        have other : part.strFileName ≠ entry.1 := fun same =>
          new _ rfl (List.mem_map.mpr ⟨entry, member, same.symm⟩)
        simpa using other
      simp [insertAttachment, unused]

theorem foldl_record_lists {platform : Platform} {parts : List PartResult}
    (recordable : ∀ part ∈ parts, part.Recordable) {helper : MailHelper}
    (new : (helper.vecAttachment.map Prod.fst ++
      (parts.filterMap PartResult.attachment).map Prod.fst).Nodup) :
    (parts.foldl (record platform) helper).vecText =
        helper.vecText ++ parts.filterMap PartResult.plain ∧
      (parts.foldl (record platform) helper).vecHTML =
        helper.vecHTML ++ parts.filterMap PartResult.html ∧
      (parts.foldl (record platform) helper).vecAttachment =
        helper.vecAttachment ++ parts.filterMap PartResult.attachment := by
  induction parts generalizing helper with
  | nil => simp
  | cons part parts induction =>
      have split : (part :: parts).filterMap PartResult.attachment =
          part.attachment.toList ++ parts.filterMap PartResult.attachment := by
        cases entry : part.attachment <;> simp [entry]
      rw [split] at new
      have own : ∀ entry ∈ part.attachment,
          entry.1 ∉ helper.vecAttachment.map Prod.fst := by
        intro entry member
        rw [Option.mem_def.mp member] at new
        intro used
        exact (List.nodup_append.mp new).2.2 _ used entry.1 (by simp) rfl
      rcases record_lists (recordable part List.mem_cons_self) own with ⟨texts, htmls, files⟩
      have further := induction
        (fun other member => recordable other (List.mem_cons_of_mem _ member))
        (by
          rw [files, List.map_append, List.append_assoc, ← List.map_append]
          exact new)
      rw [List.foldl_cons, further.1, further.2.1, further.2.2, texts, htmls, files]
      refine ⟨?_, ?_, ?_⟩
      · cases entry : part.plain <;> simp [entry]
      · cases entry : part.html <;> simp [entry]
      · rw [split, List.append_assoc]

end MailHelper

/-! ## Each leaf once -/

theorem Leaf.result_known {platform : Platform} {leaf : Leaf} {part : PartResult}
    (result : leaf.result platform = some part) : part.lType ≠ .UNKNOWN := by
  simp only [Leaf.result, Option.bind_eq_bind, Option.bind_eq_some_iff] at result
  rcases result with ⟨_, _, _, _, ⟨lType, _⟩, _, result⟩
  dsimp only at result
  split at result
  · cases result
  · next known =>
      split at result
      · cases result
        exact fun unknown => known (.inl unknown)
      · cases result
        exact fun unknown => known (.inl unknown)

/-- The parser can read the leaf, and there is something to be recorded for it. -/
structure Leaf.Recordable (platform : Platform) (leaf : Leaf) : Prop where
  readable : leaf.Readable
  result : ∃ part, leaf.result platform = some part ∧
    (part.strResult = [] → part.lType = .APPLICATION)

theorem Leaf.Recordable.readable_isSome {platform : Platform} {leaf : Leaf}
    (recordable : leaf.Recordable platform) :
    leaf.Readable ∧ (leaf.result platform).isSome = true := by
  rcases recordable.result with ⟨part, result, _⟩
  exact ⟨recordable.readable, by rw [result]; rfl⟩

namespace Mail

def results (platform : Platform) (mail : Mail) : List PartResult :=
  mail.leaves.filterMap (Leaf.result platform)

/-- From empty lists, every leaf is recorded once in the list of its type, and nothing else is. -/
def RecordedOnce (platform : Platform) (mail : Mail) : Prop :=
  ∀ helper : MailHelper, helper.vecText = [] → helper.vecHTML = [] → helper.vecAttachment = [] →
    ∃ files after, MailHelper.analyzeBody platform mail.text helper = some (true, files, after) ∧
      after.vecText.Perm ((mail.results platform).filterMap PartResult.plain) ∧
      after.vecHTML.Perm ((mail.results platform).filterMap PartResult.html) ∧
      after.vecAttachment.Perm ((mail.results platform).filterMap PartResult.attachment)

end Mail

section RecordedOnce

variable {platform : Platform} {mail : Mail}

def collectedResults (platform : Platform) (mail : Mail) : List PartResult :=
  ((mail.parts.own ++ mail.parts.nested).filter Leaf.unmarked).filterMap (Leaf.result platform)

theorem recordable_of_mem {leaves : List Leaf}
    (recordable : ∀ leaf ∈ leaves, leaf.Recordable platform) :
    ∀ part ∈ leaves.filterMap (Leaf.result platform), part.Recordable := by
  intro part member
  rcases List.mem_filterMap.mp member with ⟨leaf, inLeaves, result⟩
  rcases (recordable leaf inLeaves).result with ⟨own, same, texts⟩
  rw [result] at same
  cases same
  exact ⟨Leaf.result_known result, texts⟩

theorem length_results {leaves : List Leaf}
    (recordable : ∀ leaf ∈ leaves, leaf.Recordable platform) :
    (leaves.filterMap (Leaf.result platform)).length = leaves.length := by
  induction leaves with
  | nil => rfl
  | cons leaf leaves induction =>
      rcases (recordable leaf List.mem_cons_self).result with ⟨part, result, _⟩
      rw [List.filterMap_cons_some result, List.length_cons, List.length_cons,
        induction fun other member => recordable other (List.mem_cons_of_mem _ member)]

theorem collectedResults_sublist :
    (collectedResults platform mail).Sublist
      ((mail.parts.own ++ mail.parts.nested).filterMap (Leaf.result platform)) :=
  List.filter_sublist.filterMap _

theorem results_perm :
    ((mail.parts.own ++ mail.parts.nested).filterMap (Leaf.result platform)).Perm
      (mail.results platform) :=
  mail.parts.own_nested_perm.filterMap _

/-- The lists after a mail, from empty ones. -/
theorem collected_lists (recordable : ∀ leaf ∈ mail.leaves, leaf.Recordable platform)
    (names : (((mail.results platform).filterMap PartResult.attachment).map Prod.fst).Nodup)
    {helper : MailHelper} (noText : helper.vecText = []) (noHTML : helper.vecHTML = [])
    (noAttachment : helper.vecAttachment = []) :
    (MailHelper.collected platform mail helper).vecText =
        (collectedResults platform mail).filterMap PartResult.plain ∧
      (MailHelper.collected platform mail helper).vecHTML =
        (collectedResults platform mail).filterMap PartResult.html ∧
      (MailHelper.collected platform mail helper).vecAttachment =
        (collectedResults platform mail).filterMap PartResult.attachment := by
  have recordable' : ∀ part ∈ collectedResults platform mail, part.Recordable := by
    intro part member
    exact recordable_of_mem recordable part
      (results_perm.subset (collectedResults_sublist.subset member))
  have allNames : (((mail.parts.own ++ mail.parts.nested).filterMap
      (Leaf.result platform)).filterMap PartResult.attachment |>.map Prod.fst).Nodup :=
    ((results_perm.filterMap _).map _).nodup_iff.mpr names
  have ownNames := allNames.sublist ((collectedResults_sublist.filterMap _).map _)
  have new : (helper.vecAttachment.map Prod.fst ++
      ((collectedResults platform mail).filterMap PartResult.attachment).map Prod.fst).Nodup := by
    rw [noAttachment]
    exact ownNames
  let start : MailHelper :=
    { helper with
      strMail := mail.text
      vecBoundary := mail.frames.map Frame.boundary }
  have lists : (MailHelper.collected platform mail helper).vecText =
        helper.vecText ++ (collectedResults platform mail).filterMap PartResult.plain ∧
      (MailHelper.collected platform mail helper).vecHTML =
        helper.vecHTML ++ (collectedResults platform mail).filterMap PartResult.html ∧
      (MailHelper.collected platform mail helper).vecAttachment =
        helper.vecAttachment ++
          (collectedResults platform mail).filterMap PartResult.attachment :=
    @MailHelper.foldl_record_lists platform _ recordable' start new
  rwa [noText, noHTML, noAttachment, List.nil_append, List.nil_append, List.nil_append] at lists

/-- The parser records the leaves of a mail below two gigabytes in which delimiters stand apart,
unless it takes one of them for a container. -/
theorem recordedOnce_iff (short : mail.text.length < 2 ^ 31)
    (distinct : Distinct mail.frames mail.leaves)
    (apart : Apart mail.frames mail.leaves)
    (untyped : ¬ ascii "Content-Type" <:+: mail.root.epilogue)
    (recordable : ∀ leaf ∈ mail.leaves, leaf.Recordable platform)
    (names : (((mail.results platform).filterMap PartResult.attachment).map Prod.fst).Nodup) :
    mail.RecordedOnce platform ↔
      ∀ leaf ∈ mail.leaves, ¬ ascii "boundary=" <:+: leaf.text := by
  have analyzed := MailHelper.analyzeBody_mail (MailHelper.held_of_short short) apart distinct
    (fun leaf member => (recordable leaf member).readable_isSome) untyped
  have all_leaves : ∀ leaf ∈ mail.parts.own ++ mail.parts.nested, leaf ∈ mail.leaves :=
    fun leaf member => mail.parts.own_nested_perm.subset member
  constructor
  · intro once leaf member within
    rcases once MailHelper.create rfl rfl rfl with ⟨files, after, result, texts, htmls, entries⟩
    rw [analyzed] at result
    cases result
    have lists : _ ∧ _ ∧ _ :=
      @collected_lists platform mail recordable names MailHelper.create rfl rfl rfl
    rw [lists.1] at texts
    rw [lists.2.1] at htmls
    rw [lists.2.2] at entries
    -- every recorded leaf adds one entry, so none may be missing
    have kept : ∀ leaf ∈ (mail.parts.own ++ mail.parts.nested).filter Leaf.unmarked,
        leaf.Recordable platform := fun leaf member =>
      recordable leaf (all_leaves leaf (List.mem_of_mem_filter member))
    have all_count := PartResult.count_parts (recordable_of_mem recordable)
    have kept_count := PartResult.count_parts (recordable_of_mem kept)
    have same_length : ((mail.parts.own ++ mail.parts.nested).filter Leaf.unmarked).length =
        (mail.parts.own ++ mail.parts.nested).length := by
      have own_texts := texts.length_eq
      have own_htmls := htmls.length_eq
      have own_entries := entries.length_eq
      rw [← length_results kept, ← kept_count, mail.parts.own_nested_perm.length_eq]
      change _ = mail.leaves.length
      rw [← length_results recordable, ← all_count]
      simp only [collectedResults, Mail.results] at own_texts own_htmls own_entries
      rw [own_texts, own_htmls, own_entries]
    have unmarked := List.length_filter_eq_length_iff.mp same_length leaf
      (mail.parts.own_nested_perm.symm.subset member)
    rw [Leaf.unmarked, (contains_iff _ _).mpr within] at unmarked
    cases unmarked
  · intro unmarked helper noText noHTML noAttachment
    rcases collected_lists recordable names noText noHTML noAttachment with
      ⟨texts, htmls, entries⟩
    have all_kept : (mail.parts.own ++ mail.parts.nested).filter Leaf.unmarked =
        mail.parts.own ++ mail.parts.nested := by
      rw [List.filter_eq_self]
      intro leaf member
      have absent : contains leaf.text (ascii "boundary=") = false := by
        rw [← Bool.not_eq_true, contains_iff]
        exact unmarked leaf (all_leaves leaf member)
      rw [Leaf.unmarked, absent]
      rfl
    have whole : (collectedResults platform mail).Perm (mail.results platform) := by
      rw [collectedResults, all_kept]
      exact results_perm
    refine ⟨_, _, analyzed helper, ?_, ?_, ?_⟩
    · rw [texts]
      exact whole.filterMap _
    · rw [htmls]
      exact whole.filterMap _
    · rw [entries]
      exact whole.filterMap _

end RecordedOnce

/-! ## Two mails -/

def asciiPlatform : Platform where
  multiByteToWideChar := fun _ text => text.map UInt8.toUInt16
  mbstowcs := fun text => text.map UInt8.toUInt16
  wideCharToMultiByte := fun text => text.map UInt16.toUInt8
  opens := fun _ => true
  table := fun _ => 0
  behind := fun _ => 0

def leaf7Bit (type : Field) (body : Bytes) : Leaf :=
  ⟨[type, Field.short (ascii "Content-Transfer-Encoding: 7bit") (by decide) (by decide)], body⟩

theorem leaf7Bit_text {line : Bytes} (isLine : IsLine line) (begins : ¬ Folds line)
    (body : Bytes) : (leaf7Bit (.short line isLine begins) body).text =
      line ++ (crlf ++ (ascii "Content-Transfer-Encoding: 7bit" ++ (crlf ++ (crlf ++ body)))) := by
  simp [leaf7Bit, Leaf.text, Leaf.header, headerLines, Field.lines, Field.short,
    MailText.terminated]

def plainType : Field := .short (ascii "Content-Type: text/plain") (by decide) (by decide)

def htmlType : Field := .short (ascii "Content-Type: text/html") (by decide) (by decide)

def zipType : Field :=
  .short (ascii "Content-Type: application/zip; name=\"a\"") (by decide) (by decide)

def alternative : Frame where
  opening := ascii "Content-Type: multipart/alternative; "
  boundary := ascii "inner"
  closing := ascii "\r\n"
  epilogue := []
  isLine := by decide
  noQuote := by decide
  noNul := by decide
  ended := .inl rfl

def mixed : Frame :=
  { alternative with
    opening := ascii "Content-Type: multipart/mixed; "
    boundary := ascii "outer"
    isLine := by decide
    noQuote := by decide
    noNul := by decide }

/-- A text in two formats and a file. -/
def letter : Mail where
  root := mixed
  parts :=
    .container alternative
      (.single (leaf7Bit plainType (ascii "hi"))
        (.single (leaf7Bit htmlType (ascii "<b>hi</b>")) .nil))
      (.single (leaf7Bit zipType (ascii "PK")) .nil)

theorem letter_frames : letter.frames = [mixed, alternative] := rfl

theorem letter_leaves : letter.leaves = [leaf7Bit plainType (ascii "hi"),
    leaf7Bit htmlType (ascii "<b>hi</b>"), leaf7Bit zipType (ascii "PK")] := rfl

theorem letter_parts : letter.leaves.map (Leaf.result asciiPlatform) =
    [some ⟨.PLAIN, (ascii "hi\r\n").map UInt8.toUInt16, [], []⟩,
      some ⟨.HTML, (ascii "<b>hi</b>\r\n").map UInt8.toUInt16, [], []⟩,
      some ⟨.APPLICATION, [], ascii "PK\r\n", [97]⟩] := by
  decide +kernel

theorem letter_recordable : ∀ leaf ∈ letter.leaves, leaf.Recordable asciiPlatform := by
  have parts := letter_parts
  rw [letter_leaves] at parts ⊢
  simp only [List.map_cons, List.map_nil, List.cons.injEq, and_true] at parts
  simp only [List.forall_mem_cons, List.not_mem_nil, false_implies, implies_true, and_true]
  refine ⟨⟨?_, _, parts.1, by decide⟩, ⟨?_, _, parts.2.1, by decide⟩,
    ⟨?_, _, parts.2.2, fun _ => rfl⟩⟩
  · exact Leaf.readable_of_bodyLines (by decide) (by decide : _ = [ascii "hi"]) (by decide)
  · exact Leaf.readable_of_bodyLines (by decide) (by decide : _ = [ascii "<b>hi</b>"])
      (by decide)
  · exact Leaf.readable_of_bodyLines (by decide) (by decide : _ = [ascii "PK"]) (by decide)

theorem letter_names :
    (((letter.results asciiPlatform).filterMap PartResult.attachment).map Prod.fst).Nodup := by
  have results : letter.results asciiPlatform =
      (letter.leaves.map (Leaf.result asciiPlatform)).filterMap id := by
    rw [List.filterMap_map]
    rfl
  rw [results, letter_parts]
  decide

theorem letter_short : letter.text.length < 2 ^ 31 := by
  decide +kernel

theorem letter_distinct : Distinct letter.frames letter.leaves := by
  rw [letter_frames, letter_leaves]
  refine ⟨by decide, ?_⟩
  simp only [List.forall_mem_cons, List.not_mem_nil, false_implies, implies_true, and_true,
    plainType, htmlType, zipType, leaf7Bit_text, mixed, alternative]
  -- The kernel takes long for the characters of a literal, so they are written out first.
  repeat rw [ascii_ofList]
  decide +kernel

theorem letter_apart : Apart letter.frames letter.leaves := by
  rw [letter_frames, letter_leaves]
  constructor
  all_goals
    simp only [List.forall_mem_cons, List.not_mem_nil, false_implies, implies_true, and_true,
      plainType, htmlType, zipType, leaf7Bit_text, mixed, alternative, Frame.delimiter,
      Frame.head, Frame.closer]
    repeat rw [ascii_ofList]
    decide +kernel

theorem letter_unmarked : ∀ leaf ∈ letter.leaves, ¬ ascii "boundary=" <:+: leaf.text := by
  rw [letter_leaves]
  simp only [List.forall_mem_cons, List.not_mem_nil, false_implies, implies_true, and_true,
    plainType, htmlType, zipType, leaf7Bit_text]
  repeat rw [ascii_ofList]
  decide +kernel

theorem letter_untyped : ¬ ascii "Content-Type" <:+: letter.root.epilogue := by
  decide

/-- The three parts of the letter are recorded. -/
theorem letter_recordedOnce : letter.RecordedOnce asciiPlatform :=
  (recordedOnce_iff letter_short letter_distinct letter_apart letter_untyped letter_recordable
    letter_names).mpr letter_unmarked

theorem mixed_apart {leaves : List Leaf}
    (untagged : ∀ leaf ∈ leaves, ¬ ascii "boundary=\"" <:+: leaf.text) :
    Apart [mixed] leaves := by
  refine ⟨?_, ?_, ?_, ?_, ?_, ?_, untagged⟩
  all_goals
    simp only [List.forall_mem_singleton, mixed, alternative, Frame.delimiter, Frame.head,
      Frame.closer]
    repeat rw [ascii_ofList]
    decide +kernel

/-- A text that mentions a boundary. -/
def mention : Mail where
  root := mixed
  parts := .single (leaf7Bit plainType (ascii "boundary=b")) .nil

/-- The text is lost: it is taken for a container. -/
theorem mention_not_recordedOnce :
    Distinct mention.frames mention.leaves ∧
      (∀ leaf ∈ mention.leaves, leaf.Recordable asciiPlatform) ∧
      ¬ mention.RecordedOnce asciiPlatform := by
  have frames : mention.frames = [mixed] := rfl
  have leaves : mention.leaves = [leaf7Bit plainType (ascii "boundary=b")] := rfl
  have distinct : Distinct mention.frames mention.leaves := by
    rw [frames, leaves]
    refine ⟨by decide, ?_⟩
    simp only [List.forall_mem_singleton, plainType, leaf7Bit_text, mixed]
    repeat rw [ascii_ofList]
    decide +kernel
  have part : (leaf7Bit plainType (ascii "boundary=b")).result asciiPlatform =
      some ⟨.PLAIN, (ascii "boundary=b\r\n").map UInt8.toUInt16, [], []⟩ := by
    decide +kernel
  have recordable : ∀ leaf ∈ mention.leaves, leaf.Recordable asciiPlatform := by
    rw [leaves, List.forall_mem_singleton]
    exact ⟨Leaf.readable_of_bodyLines (by decide) (by decide : _ = [ascii "boundary=b"])
      (by decide), _, part, by decide⟩
  refine ⟨distinct, recordable, fun once => ?_⟩
  have apart : Apart mention.frames mention.leaves := by
    rw [frames, leaves]
    apply mixed_apart
    rw [List.forall_mem_singleton, plainType, leaf7Bit_text]
    repeat rw [ascii_ofList]
    decide +kernel
  have held : MailHelper.Held mention.text := MailHelper.held_of_short (by decide +kernel)
  have analyzed := MailHelper.analyzeBody_mail held apart distinct
    (fun leaf member => (recordable leaf member).readable_isSome) (by decide)
    MailHelper.create
  rcases once MailHelper.create rfl rfl rfl with ⟨files, after, result, texts, _⟩
  rw [analyzed] at result
  cases result
  have none : (MailHelper.collected asciiPlatform mention MailHelper.create).vecText = [] := by
    decide +kernel
  have one : (mention.results asciiPlatform).filterMap PartResult.plain =
      [(ascii "boundary=b\r\n").map UInt8.toUInt16] := by
    rw [Mail.results, leaves, List.filterMap_cons, part]
    rfl
  rw [none, one] at texts
  exact absurd texts.length_eq (by decide)

end MyBookSources.RecvMail
