import MyBookSources.RecvMail.PartCollection

/-! # Analysis of one mail

What `analyzeBody` finds in a mail is found without the static members. It reads two of them when
it decides what to return, and what to do with the parts: whether a mail was taken for one from a
mobile platform, and the attachments.
-/

namespace MyBookSources.RecvMail

open StringUtil (find)

/-- What is found in a mail: its boundaries, its text if it is taken for one from a mobile
platform, and its parts. -/
structure Analysis where
  tags : List Bytes
  mobile : Option Wide
  parts : List PartResult

namespace MailHelper

/-- The pieces of a mail that are taken for parts, boundary by boundary. -/
def partPieces (tags : List Bytes) (strMail : Bytes) : List Bytes :=
  tags.flatMap fun boundary =>
    (splitString strMail (cString (ascii "--" ++ boundary))).filter
      ({ create with vecBoundary := tags }.isPart boundary)

/-- A mail without boundaries may be taken for one from a mobile platform. -/
def mobileAnalysis (platform : Platform) (strMail : Bytes) : Option Analysis :=
  match if looksMobile strMail then mobileBody strMail else none with
  | some body => (trimWide (mobileText platform strMail body)).map fun text => ⟨[], some text, []⟩
  | none => some ⟨[], none, []⟩

/-- What is found in a mail that is not empty; `none` if the call does not return. -/
def analysis (platform : Platform) (strMail : Bytes) : Option Analysis :=
  (boundaryTags strMail).bind fun tags =>
    if tags.isEmpty then mobileAnalysis platform strMail
    else ((partPieces tags strMail).mapM (analyzePart platform)).map fun parts =>
      ⟨tags, none, parts⟩

def conclude (platform : Platform) (strMail : Bytes) (helper : MailHelper) (found : Analysis) :
    Bool × List (Bytes × Bytes) × MailHelper :=
  let entered :=
    { helper with
      strMail := strMail
      vecBoundary := found.tags
      vecText := helper.vecText ++ found.mobile.toList
      bIsFromMobilePlatform := helper.bIsFromMobilePlatform || found.mobile.isSome }
  if found.tags.isEmpty && !entered.bIsFromMobilePlatform then (false, [], entered)
  else
    let after := found.parts.foldl (record platform) entered
    (true, after.writtenFiles platform, after)

/-! ## The loops without the members -/

theorem isPart_congr {left right : MailHelper} (same : left.vecBoundary = right.vecBoundary)
    (strBoundary : Bytes) : left.isPart strBoundary = right.isPart strBoundary := by
  funext strItem
  rw [isPart, isPart, isExistBoundary, isExistBoundary, same]

theorem foldl_record_fixed (platform : Platform) (parts : List PartResult)
    (helper : MailHelper) :
    (parts.foldl (record platform) helper).vecBoundary = helper.vecBoundary ∧
      (parts.foldl (record platform) helper).strMail = helper.strMail := by
  induction parts generalizing helper with
  | nil => exact ⟨rfl, rfl⟩
  | cons part parts induction =>
      rcases induction (helper.record platform part) with ⟨boundaries, mail⟩
      rcases record_fixed platform helper part with ⟨sameBoundaries, sameMail⟩
      exact ⟨boundaries.trans sameBoundaries, mail.trans sameMail⟩

theorem foldlM_analyzePiece (platform : Platform) (strBoundary : Bytes) (items : List Bytes)
    (helper : MailHelper) :
    items.foldlM (analyzePiece platform strBoundary) helper =
      ((items.filter (helper.isPart strBoundary)).mapM (analyzePart platform)).map fun parts =>
        parts.foldl (record platform) helper := by
  induction items generalizing helper with
  | nil => rfl
  | cons item items induction =>
      rw [List.foldlM_cons, analyzePiece]
      by_cases part : helper.isPart strBoundary item = true
      · rw [if_pos part, List.filter_cons_of_pos part, List.mapM_cons]
        cases analyzePart platform item with
        | none => rfl
        | some result =>
            have same := isPart_congr (record_fixed platform helper result).1 strBoundary
            change items.foldlM _ (helper.record platform result) = _
            rw [induction, same]
            cases (items.filter (helper.isPart strBoundary)).mapM (analyzePart platform) <;> rfl
      · rw [if_neg part, List.filter_cons_of_neg part]
        exact induction helper

theorem foldlM_analyzeBoundary (platform : Platform) (tags boundaries : List Bytes)
    {helper : MailHelper} (found : helper.vecBoundary = tags) :
    boundaries.foldlM (fun helper boundary => helper.analyzeBoundary platform boundary) helper =
      ((boundaries.flatMap fun boundary =>
          (splitString helper.strMail (cString (ascii "--" ++ boundary))).filter
            ({ create with vecBoundary := tags }.isPart boundary)).mapM
        (analyzePart platform)).map fun parts => parts.foldl (record platform) helper := by
  induction boundaries generalizing helper with
  | nil => rfl
  | cons boundary boundaries induction =>
      have same : helper.isPart boundary =
          { create with vecBoundary := tags }.isPart boundary :=
        isPart_congr found boundary
      rw [List.foldlM_cons, analyzeBoundary, foldlM_analyzePiece, same, List.flatMap_cons,
        List.mapM_append]
      cases ((splitString helper.strMail (cString (ascii "--" ++ boundary))).filter
          ({ create with vecBoundary := tags }.isPart boundary)).mapM (analyzePart platform) with
      | none => rfl
      | some parts =>
          rcases foldl_record_fixed platform parts helper with ⟨boundaries_eq, mail_eq⟩
          change boundaries.foldlM _ (parts.foldl (record platform) helper) = _
          rw [induction (boundaries_eq.trans found), mail_eq]
          cases (boundaries.flatMap fun boundary =>
              (splitString helper.strMail (cString (ascii "--" ++ boundary))).filter
                ({ create with vecBoundary := tags }.isPart boundary)).mapM
              (analyzePart platform) with
          | none => rfl
          | some others =>
              change some _ = some ((parts ++ others).foldl (record platform) helper)
              rw [List.foldl_append]

theorem analyzeBody_eq (platform : Platform) {strMail : Bytes} (filled : strMail ≠ [])
    (helper : MailHelper) :
    analyzeBody platform strMail helper =
      (analysis platform strMail).map (conclude platform strMail helper) := by
  have notEmpty : strMail.isEmpty = false := List.isEmpty_eq_false_iff.mpr filled
  rw [analyzeBody, notEmpty, analysis, getBoundaryTag]
  change ((boundaryTags strMail).map _).bind _ = _
  cases boundaryTags strMail with
  | none => rfl
  | some tags =>
      cases tags with
      | nil =>
          change ((detectMobilePlatform platform
            { helper with strMail := strMail, vecBoundary := [] }).bind fun detected =>
              if !detected.1 then some (false, [], detected.2)
              else (detected.2.vecBoundary.foldlM (fun helper boundary =>
                analyzeBoundary platform boundary helper) detected.2).bind fun helper =>
                  some (true, helper.writtenFiles platform, helper)) =
            (mobileAnalysis platform strMail).map (conclude platform strMail helper)
          rw [detectMobilePlatform, mobileAnalysis]
          cases looksMobile strMail with
          | false =>
              cases flag : helper.bIsFromMobilePlatform <;> simp [conclude, flag]
          | true =>
              cases mobileBody strMail with
              | none => cases flag : helper.bIsFromMobilePlatform <;> simp [conclude, flag]
              | some body =>
                  cases text : trimWide (mobileText platform strMail body) <;>
                    simp [conclude, text]
      | cons tag tags =>
          have loop := foldlM_analyzeBoundary platform (tag :: tags) (tag :: tags)
            (show { helper with strMail := strMail, vecBoundary := tag :: tags }.vecBoundary =
              tag :: tags from rfl)
          change ((tag :: tags).foldlM (fun helper boundary =>
            analyzeBoundary platform boundary helper)
              { helper with strMail := strMail, vecBoundary := tag :: tags }).bind (fun helper =>
                some (true, helper.writtenFiles platform, helper)) = _
          rw [loop]
          change _ = (((partPieces (tag :: tags) strMail).mapM (analyzePart platform)).map
            fun parts => (⟨tag :: tags, none, parts⟩ : Analysis)).map _
          rw [partPieces]
          cases ((tag :: tags).flatMap fun boundary =>
              (splitString strMail (cString (ascii "--" ++ boundary))).filter
                ({ create with vecBoundary := tag :: tags }.isPart boundary)).mapM
              (analyzePart platform) with
          | none => rfl
          | some parts => simp [conclude]

/-! ## What recording depends on -/

theorem record_flag (platform : Platform) (helper : MailHelper) (part : PartResult) :
    (helper.record platform part).bIsFromMobilePlatform = helper.bIsFromMobilePlatform := by
  rw [record]
  split
  · rfl
  · cases part.lType <;> rfl

theorem foldl_record_flag (platform : Platform) (parts : List PartResult) (helper : MailHelper) :
    (parts.foldl (record platform) helper).bIsFromMobilePlatform =
      helper.bIsFromMobilePlatform := by
  induction parts generalizing helper with
  | nil => rfl
  | cons part parts induction => exact (induction _).trans (record_flag platform helper part)

theorem record_adds (platform : Platform) (part : PartResult) :
    ∃ texts htmls, ∀ helper : MailHelper,
      (helper.record platform part).vecText = helper.vecText ++ texts ∧
        (helper.record platform part).vecHTML = helper.vecHTML ++ htmls := by
  by_cases empty : part.strResult.isEmpty = true ∧ part.lType ≠ .APPLICATION
  · refine ⟨[], [], fun helper => ?_⟩
    rw [record, if_pos empty, List.append_nil, List.append_nil]
    exact ⟨rfl, rfl⟩
  · cases type : part.lType with
    | PLAIN =>
        refine ⟨[part.strResult], [], fun helper => ?_⟩
        rw [record, if_neg empty, type, List.append_nil]
        exact ⟨rfl, rfl⟩
    | HTML =>
        refine ⟨[], [part.strResult], fun helper => ?_⟩
        rw [record, if_neg empty, type, List.append_nil]
        exact ⟨rfl, rfl⟩
    | APPLICATION => exact ⟨[], [], fun helper => by simp [record, type]⟩
    | UNKNOWN => exact ⟨[], [], fun helper => by simp [record, type]⟩

theorem foldl_record_adds (platform : Platform) (parts : List PartResult) :
    ∃ texts htmls, ∀ helper : MailHelper,
      (parts.foldl (record platform) helper).vecText = helper.vecText ++ texts ∧
        (parts.foldl (record platform) helper).vecHTML = helper.vecHTML ++ htmls := by
  induction parts with
  | nil => exact ⟨[], [], fun helper => by simp⟩
  | cons part parts induction =>
      rcases record_adds platform part with ⟨texts, htmls, own⟩
      rcases induction with ⟨moreTexts, moreHTMLs, others⟩
      refine ⟨texts ++ moreTexts, htmls ++ moreHTMLs, fun helper => ?_⟩
      rw [List.foldl_cons, (others _).1, (others _).2, (own helper).1, (own helper).2,
        List.append_assoc, List.append_assoc]
      exact ⟨rfl, rfl⟩

theorem insertAttachment_subset (platform : Platform) (strAttachment : Bytes) (tries i : Nat)
    (strFileName : Wide) (attachments : List (Wide × Bytes)) :
    attachments ⊆ insertAttachment platform strAttachment tries i strFileName attachments := by
  induction tries generalizing i strFileName with
  | zero => exact List.Subset.refl _
  | succ tries induction =>
      rw [insertAttachment]
      split
      · exact List.subset_append_left _ _
      · exact induction _ _

theorem record_attachment_subset (platform : Platform) (helper : MailHelper)
    (part : PartResult) :
    helper.vecAttachment ⊆ (helper.record platform part).vecAttachment := by
  rw [record]
  split
  · exact List.Subset.refl _
  · cases part.lType with
    | APPLICATION => exact insertAttachment_subset platform _ _ _ _ _
    | _ => exact List.Subset.refl _

theorem foldl_record_attachment_subset (platform : Platform) (parts : List PartResult)
    (helper : MailHelper) :
    helper.vecAttachment ⊆ (parts.foldl (record platform) helper).vecAttachment := by
  induction parts generalizing helper with
  | nil => exact List.Subset.refl _
  | cons part parts induction =>
      exact List.Subset.trans (record_attachment_subset platform helper part) (induction _)

theorem record_attachment_congr (platform : Platform) (part : PartResult)
    {left right : MailHelper} (same : left.vecAttachment = right.vecAttachment) :
    (left.record platform part).vecAttachment = (right.record platform part).vecAttachment := by
  unfold record
  split
  · exact same
  · cases part.lType with
    | APPLICATION =>
        change insertAttachment _ _ _ _ _ _ = insertAttachment _ _ _ _ _ _
        rw [same]
    | _ => exact same

theorem foldl_record_attachment_congr (platform : Platform) (parts : List PartResult)
    {left right : MailHelper} (same : left.vecAttachment = right.vecAttachment) :
    (parts.foldl (record platform) left).vecAttachment =
      (parts.foldl (record platform) right).vecAttachment := by
  induction parts generalizing left right with
  | nil => exact same
  | cons part parts induction => exact induction (record_attachment_congr platform part same)

theorem foldl_record_without_attachment (platform : Platform) {parts : List PartResult}
    (plain : ∀ part ∈ parts, part.lType ≠ .APPLICATION) (helper : MailHelper) :
    (parts.foldl (record platform) helper).vecAttachment = helper.vecAttachment := by
  induction parts generalizing helper with
  | nil => rfl
  | cons part parts induction =>
      have own : (helper.record platform part).vecAttachment = helper.vecAttachment := by
        rw [record]
        split
        · rfl
        · cases type : part.lType with
          | APPLICATION => exact absurd type (plain part List.mem_cons_self)
          | _ => rfl
      exact (induction (fun other member => plain other (List.mem_cons_of_mem _ member)) _).trans
        own

theorem writtenFiles_congr (platform : Platform) {left right : MailHelper}
    (same : left.vecAttachment = right.vecAttachment) :
    left.writtenFiles platform = right.writtenFiles platform := by
  rw [writtenFiles, writtenFiles, same]

end MailHelper

end MyBookSources.RecvMail
