import Mathlib.Algebra.Order.BigOperators.Group.List
import Mathlib.Data.Finset.Dedup
import MyBookSources.RecvMail.MailAnalysis
import MyBookSources.RecvMail.RecordedParts

/-! # Mails one after the other

What is extracted from a mail depends on the mails before it: attachments are kept and written
again, and one mail from a mobile platform makes every later mail count as one.
-/

namespace MyBookSources.RecvMail

open StringUtil (find)
open MailText (crlf)

namespace MailHelper

/-- What one call extracts: its value, the files it writes, and the texts that it adds. -/
structure Extracted where
  value : Bool
  files : Finset (Bytes × Bytes)
  texts : List Wide
  htmls : List Wide
  deriving DecidableEq

def extracted (platform : Platform) (helper : MailHelper) (strMail : Bytes) : Option Extracted :=
  (analyzeBody platform strMail helper).map fun (value, files, after) =>
    ⟨value, files.toFinset, after.vecText.drop helper.vecText.length,
      after.vecHTML.drop helper.vecHTML.length⟩

/-- The members after earlier mails, if all the calls return. -/
def afterMails (platform : Platform) (history : List Bytes) : Option MailHelper :=
  history.foldlM (fun helper strMail => (analyzeBody platform strMail helper).map (·.2.2)) create

/-- What is extracted from a mail does not depend on the other mails analyzed before it. -/
def Independent (platform : Platform) (strMail : Bytes) : Prop :=
  ∀ left right : List Bytes, strMail ∉ left → strMail ∉ right →
    ∀ leftHelper rightHelper, afterMails platform left = some leftHelper →
      afterMails platform right = some rightHelper →
      extracted platform leftHelper strMail = extracted platform rightHelper strMail

/-- The mail is not taken for one from a mobile platform, and has no attachment. -/
def Plain (platform : Platform) (strMail : Bytes) : Prop :=
  ∀ found ∈ analysis platform strMail,
    found.mobile = none ∧ ∀ part ∈ found.parts, part.lType ≠ .APPLICATION

/-! ## The members that matter -/

theorem conclude_lists (platform : Platform) (strMail : Bytes) (found : Analysis) (flag : Bool) :
    ∃ texts htmls, ∀ helper : MailHelper, helper.bIsFromMobilePlatform = flag →
      (conclude platform strMail helper found).2.2.vecText = helper.vecText ++ texts ∧
        (conclude platform strMail helper found).2.2.vecHTML = helper.vecHTML ++ htmls := by
  rcases foldl_record_adds platform found.parts with ⟨texts, htmls, adds⟩
  by_cases rejected : (found.tags.isEmpty && !(flag || found.mobile.isSome)) = true
  · refine ⟨found.mobile.toList, [], fun helper same => ?_⟩
    rw [← same] at rejected
    rw [conclude, if_pos rejected, List.append_nil]
    exact ⟨rfl, rfl⟩
  · refine ⟨found.mobile.toList ++ texts, htmls, fun helper same => ?_⟩
    rw [← same] at rejected
    rw [conclude, if_neg rejected]
    dsimp only
    rw [(adds _).1, (adds _).2, List.append_assoc]
    exact ⟨rfl, rfl⟩

theorem conclude_congr (platform : Platform) (strMail : Bytes) (found : Analysis)
    {left right : MailHelper}
    (sameFlag : left.bIsFromMobilePlatform = right.bIsFromMobilePlatform)
    (sameFiles : left.vecAttachment = right.vecAttachment) :
    (conclude platform strMail left found).1 = (conclude platform strMail right found).1 ∧
      (conclude platform strMail left found).2.1 =
        (conclude platform strMail right found).2.1 := by
  rw [conclude, conclude, sameFlag]
  dsimp only
  split
  · exact ⟨rfl, rfl⟩
  · refine ⟨rfl, writtenFiles_congr platform ?_⟩
    apply foldl_record_attachment_congr
    exact sameFiles

theorem extracted_congr (platform : Platform) (strMail : Bytes) {left right : MailHelper}
    (sameFlag : left.bIsFromMobilePlatform = right.bIsFromMobilePlatform)
    (sameFiles : left.vecAttachment = right.vecAttachment) :
    extracted platform left strMail = extracted platform right strMail := by
  by_cases filled : strMail = []
  · rw [filled, extracted, extracted]
    simp [analyzeBody]
  · rw [extracted, extracted, analyzeBody_eq platform filled, analyzeBody_eq platform filled]
    cases analysis platform strMail with
    | none => rfl
    | some found =>
        rcases conclude_lists platform strMail found left.bIsFromMobilePlatform with
          ⟨texts, htmls, adds⟩
        rcases conclude_congr platform strMail found sameFlag sameFiles with ⟨values, files⟩
        have addsLeft := adds left rfl
        have addsRight := adds right sameFlag.symm
        simp only [Option.map_some, values, files, addsLeft.1, addsLeft.2, addsRight.1,
          addsRight.2, List.drop_left]

theorem Plain.kept {platform : Platform} {strMail : Bytes} (plain : Plain platform strMail)
    {helper after : MailHelper}
    (returned : (analyzeBody platform strMail helper).map (·.2.2) = some after) :
    after.bIsFromMobilePlatform = helper.bIsFromMobilePlatform ∧
      after.vecAttachment = helper.vecAttachment := by
  by_cases filled : strMail = []
  · rw [filled] at returned
    cases returned
    exact ⟨rfl, rfl⟩
  · rw [analyzeBody_eq platform filled] at returned
    cases result : analysis platform strMail with
    | none => simp [result] at returned
    | some found =>
        rcases plain found result with ⟨notMobile, noAttachment⟩
        rw [result] at returned
        cases returned
        simp only [conclude, notMobile, Option.isSome_none, Bool.or_false]
        split
        · exact ⟨rfl, rfl⟩
        · exact ⟨foldl_record_flag platform _ _,
            foldl_record_without_attachment platform noAttachment _⟩

theorem afterMails_plain {platform : Platform} {history : List Bytes}
    (plain : ∀ strMail ∈ history, Plain platform strMail) {helper : MailHelper}
    (returned : afterMails platform history = some helper) :
    helper.bIsFromMobilePlatform = false ∧ helper.vecAttachment = [] := by
  have general : ∀ start : MailHelper,
      history.foldlM (fun helper strMail => (analyzeBody platform strMail helper).map (·.2.2))
        start = some helper →
      helper.bIsFromMobilePlatform = start.bIsFromMobilePlatform ∧
        helper.vecAttachment = start.vecAttachment := by
    clear returned
    induction history with
    | nil =>
        intro start returned
        cases returned
        exact ⟨rfl, rfl⟩
    | cons strMail history induction =>
        intro start returned
        rw [List.foldlM_cons, Option.bind_eq_bind, Option.bind_eq_some_iff] at returned
        rcases returned with ⟨next, first, others⟩
        have own := (plain strMail List.mem_cons_self).kept first
        have further := induction (fun other member => plain other (List.mem_cons_of_mem _ member))
          next others
        exact ⟨further.1.trans own.1, further.2.trans own.2⟩
  exact general create returned

end MailHelper

/-! ## A mail with an attachment -/

/-- What the mails below need of a system: a name of one letter is converted and can be opened,
and no bytes make no text. -/
structure Platform.Working (platform : Platform) : Prop where
  named : platform.mbstowcs (ascii "a") ≠ []
  opens : platform.opens
    (EncodeUtil.UnicodeToUtf8 platform (platform.mbstowcs (ascii "a"))) = true
  empty : platform.multiByteToWideChar .utf8 [] = []

def attachmentLeaf (count : Nat) : Leaf :=
  leaf7Bit zipType (List.replicate (count + 1) 120)

def attachmentMail (count : Nat) : Mail := ⟨mixed, .single (attachmentLeaf count) .nil⟩

def attachmentContent (count : Nat) : Bytes := List.replicate (count + 1) 120 ++ crlf

theorem attachmentLeaf_header (count : Nat) : (attachmentLeaf count).header =
    ascii "Content-Type: application/zip; name=\"a\"" ++
      (crlf ++ (ascii "Content-Transfer-Encoding: 7bit" ++ crlf)) := by
  simp [attachmentLeaf, leaf7Bit, Leaf.header, headerLines, Field.lines, Field.short, zipType,
    MailText.terminated, crlf]

theorem attachmentLeaf_clean (count : Nat) {pattern : Bytes} (isLine : IsLine pattern)
    {byte : Byte} (inPattern : byte ∈ pattern) (other : byte ≠ 120)
    (clean : ¬ pattern <:+: (attachmentLeaf 0).header) :
    ¬ pattern <:+: (attachmentLeaf count).text := by
  intro within
  have split : (attachmentLeaf count).text =
      (attachmentLeaf 0).header ++ (crlf ++ List.replicate (count + 1) 120) := by
    rw [Leaf.text, List.append_assoc]
    rfl
  rw [split] at within
  rcases isLine.infix_crlf within with inHeader | inBody
  · exact clean inHeader
  · exact other (List.eq_of_mem_replicate (inBody.subset inPattern))

theorem attachmentLeaf_readable (count : Nat) : (attachmentLeaf count).Readable := by
  have noCr : 13 ∉ List.replicate (count + 1) (120 : Byte) := fun member =>
    absurd (List.eq_of_mem_replicate member) (by decide)
  have text : (attachmentLeaf count).bodyLines = [List.replicate (count + 1) 120] := by
    change (MailText.lines (List.replicate (count + 1) 120)).filter _ = _
    rw [MailText.lines_of_noCr noCr]
    rfl
  refine Leaf.readable_of_bodyLines ?_ text ?_
  · rw [attachmentLeaf_header]
    repeat rw [ascii_ofList]
    decide +kernel
  · simp [Folds, List.replicate_succ]

theorem contentType_attachment (platform : Platform) :
    contentType platform (ascii " application/zip; name=\"a\"") =
      some (.APPLICATION, platform.mbstowcs (ascii "a")) := by
  have upper : stringToUpper (ascii " application/zip; name=\"a\"") =
      ascii " APPLICATION/ZIP; NAME=\"A\"" := by
    repeat rw [ascii_ofList]
    decide
  have notPlain : contains (ascii " APPLICATION/ZIP; NAME=\"A\"") (ascii "TEXT/PLAIN") = false := by
    repeat rw [ascii_ofList]
    decide
  have notHTML : contains (ascii " APPLICATION/ZIP; NAME=\"A\"") (ascii "TEXT/HTML") = false := by
    repeat rw [ascii_ofList]
    decide
  have application : contains (ascii " APPLICATION/ZIP; NAME=\"A\"") (ascii "APPLICATION") =
      true := by
    repeat rw [ascii_ofList]
    decide
  have started : findFrom (ascii "NAME=\"") (ascii " APPLICATION/ZIP; NAME=\"A\"") 0 = some 18 := by
    repeat rw [ascii_ofList]
    decide
  have closed : findFrom (ascii "\"") (ascii " APPLICATION/ZIP; NAME=\"A\"") 24 = some 25 := by
    repeat rw [ascii_ofList]
    decide
  have name : trim ((ascii " application/zip; name=\"a\"").slice 24 25) = ascii "a" := by
    repeat rw [ascii_ofList]
    decide
  have notEncoded : findFrom (ascii "=?") (ascii "a") 0 = none := by
    repeat rw [ascii_ofList]
    decide
  have whole : cString (ascii "a") = ascii "a" := by
    decide
  simp only [contentType, upper, notPlain, notHTML, application, started, quotedName, closed, name,
    analyzeString, notEncoded, position_none, EncodeUtil.s2ws, whole]
  rfl

theorem attachmentLeaf_result (platform : Platform) (count : Nat) :
    (attachmentLeaf count).result platform =
      some ⟨.APPLICATION, [], attachmentContent count, platform.mbstowcs (ascii "a")⟩ := by
  have value : fieldContent (ascii "CONTENT-TYPE:") (attachmentLeaf count).fields =
      some (ascii " application/zip; name=\"a\"") := by
    change fieldContent (ascii "CONTENT-TYPE:") (attachmentLeaf 0).fields = _
    decide +kernel
  have encoding : fieldContent (ascii "CONTENT-TRANSFER-ENCODING:") (attachmentLeaf count).fields =
      some (ascii " 7bit") := by
    change fieldContent (ascii "CONTENT-TRANSFER-ENCODING:") (attachmentLeaf 0).fields = _
    decide +kernel
  have code : contentEncoding (ascii " 7bit") = .ENCODE_7_BIT := by
    decide +kernel
  have body : (attachmentLeaf count).encoded .ENCODE_7_BIT = attachmentContent count := by
    rw [Leaf.encoded]
    split <;> rfl
  simp only [Leaf.result, value, encoding, Option.bind_eq_bind, Option.bind_some,
    contentType_attachment, code, body, decodeBody]
  rfl

def attachmentFront : Bytes :=
  mixed.head ++ (mixed.delimiter ++ (crlf ++ ((attachmentLeaf 0).header ++ crlf)))

theorem attachmentMail_text (count : Nat) : (attachmentMail count).text =
    attachmentFront ++ (List.replicate (count + 1) 120 ++ (crlf ++ mixed.tail)) := by
  simp [Mail.text, attachmentMail, Parts.text, Leaf.piece, Leaf.text, attachmentLeaf, leaf7Bit,
    attachmentFront, Leaf.header]

theorem attachmentMail_held (count : Nat) : MailHelper.Held (attachmentMail count).text := by
  have short : attachmentFront.length < 2 ^ 31 := by decide +kernel
  have behind : 34 ∉ crlf ++ mixed.tail := by decide +kernel
  rw [attachmentMail_text]
  apply MailHelper.held_append short
  rw [List.mem_append, not_or]
  exact ⟨fun member => absurd (List.eq_of_mem_replicate member) (by decide), behind⟩

theorem attachmentMail_distinct (count : Nat) :
    Distinct (attachmentMail count).frames (attachmentMail count).leaves where
  different := List.nodup_singleton _
  absent := by
    intro frame known leaf member
    rw [List.mem_singleton.mp known, List.mem_singleton.mp member]
    have first : 111 ∈ mixed.boundary := by decide
    have clean : ¬ mixed.boundary <:+: (attachmentLeaf 0).header := by
      have boundary : mixed.boundary = ascii "outer" := rfl
      rw [attachmentLeaf_header, boundary]
      repeat rw [ascii_ofList]
      decide +kernel
    exact attachmentLeaf_clean count mixed.isLine first (by decide) clean

theorem attachmentMail_apart (count : Nat) :
    Apart (attachmentMail count).frames (attachmentMail count).leaves := by
  apply mixed_apart
  intro leaf member
  rw [List.mem_singleton.mp member]
  have first : 98 ∈ ascii "boundary=\"" := by decide
  have clean : ¬ ascii "boundary=\"" <:+: (attachmentLeaf 0).header := by
    rw [attachmentLeaf_header]
    repeat rw [ascii_ofList]
    decide +kernel
  exact attachmentLeaf_clean count isLine_tag first (by decide) clean

namespace MailHelper

theorem afterMails_attachment (platform : Platform) (count : Nat) :
    ∃ helper, afterMails platform [(attachmentMail count).text] = some helper ∧
      (platform.mbstowcs (ascii "a"), attachmentContent count) ∈ helper.vecAttachment := by
  have result := attachmentLeaf_result platform count
  have readable : ∀ leaf ∈ (attachmentMail count).leaves,
      leaf.Readable ∧ (leaf.result platform).isSome = true := by
    intro leaf member
    rw [List.mem_singleton.mp member, result]
    exact ⟨attachmentLeaf_readable count, rfl⟩
  have analyzed := analyzeBody_mail (attachmentMail_held count) (attachmentMail_apart count)
    (attachmentMail_distinct count) readable
    (by decide : ¬ ascii "Content-Type" <:+: mixed.epilogue) create
  have kept : (attachmentLeaf count).unmarked = true := by
    have isLine : IsLine (ascii "boundary=") := ⟨by decide, by decide, by decide⟩
    have first : 98 ∈ ascii "boundary=" := by decide
    have clean : ¬ ascii "boundary=" <:+: (attachmentLeaf 0).header := by
      rw [attachmentLeaf_header]
      repeat rw [ascii_ofList]
      decide +kernel
    have absent : contains (attachmentLeaf count).text (ascii "boundary=") = false := by
      rw [← Bool.not_eq_true, contains_iff]
      exact attachmentLeaf_clean count isLine first (by decide) clean
    rw [Leaf.unmarked, absent]
    rfl
  refine ⟨collected platform (attachmentMail count) create, ?_, ?_⟩
  · rw [afterMails, List.foldlM_cons, analyzed]
    rfl
  · have own : collected platform (attachmentMail count) create =
        MailHelper.collect platform
          { create with
            strMail := (attachmentMail count).text
            vecBoundary := (attachmentMail count).frames.map Frame.boundary }
          [attachmentLeaf count] := rfl
    rw [own, collect_unmarked kept result, collect, List.filter_nil, List.filterMap_nil,
      List.foldl_nil, record]
    simp [insertAttachment, create]

end MailHelper

/-! ## A mail from a mobile platform -/

def mobileMail : Bytes :=
  ascii "Content-Type: text/plain; charset=utf-8\r\n" ++
    ascii "Content-Transfer-Encoding: base64\r\n\r\n.\r\n"

namespace MailHelper

theorem analysis_mobileMail {platform : Platform} (working : platform.Working) :
    analysis platform mobileMail = some ⟨[], some [], []⟩ := by
  have untagged : findFrom (ascii "boundary=\"") mobileMail 0 = none := by
    rw [mobileMail]
    repeat rw [ascii_ofList]
    decide
  have looks : looksMobile mobileMail = true := by
    rw [mobileMail]
    repeat rw [ascii_ofList]
    decide
  have body : mobileBody mobileMail = some [] := by
    rw [mobileMail]
    repeat rw [ascii_ofList]
    decide
  have notGB : contains mobileMail (ascii "gb2312") = false := by
    rw [mobileMail]
    repeat rw [ascii_ofList]
    decide
  have utf8 : contains mobileMail (ascii "utf-8") = true := by
    rw [mobileMail]
    repeat rw [ascii_ofList]
    decide
  have decoded : Base64Util.decode platform [] = [] := by
    rw [Base64Util.decode, Base64Util.decodeLoop]
    exact if_neg (by decide)
  have text : mobileText platform mobileMail [] = [] := by
    rw [mobileText, decoded, notGB, utf8]
    exact working.empty
  rw [analysis, boundaryTags_absent untagged, Option.bind_some, List.isEmpty_nil, if_pos rfl,
    mobileAnalysis, looks, if_pos rfl, body]
  dsimp only
  rw [text]
  rfl

theorem afterMails_mobileMail {platform : Platform} (working : platform.Working) :
    ∃ helper, afterMails platform [mobileMail] = some helper ∧
      helper.bIsFromMobilePlatform = true := by
  have filled : mobileMail ≠ [] := by
    decide
  refine ⟨(conclude platform mobileMail create ⟨[], some [], []⟩).2.2, ?_, rfl⟩
  rw [afterMails, List.foldlM_cons, analyzeBody_eq platform filled, analysis_mobileMail working]
  rfl

end MailHelper

/-! ## Two histories -/

namespace MailHelper

variable {platform : Platform} {strMail : Bytes}

/-- A call that returns `true` writes the attachments of earlier mails again. -/
theorem files_kept {helper : MailHelper} {found : Analysis} {name : Wide} {content : Bytes}
    (known : (name, content) ∈ helper.vecAttachment) (named : name ≠ []) (filled : content ≠ [])
    (opens : platform.opens (EncodeUtil.UnicodeToUtf8 platform name) = true)
    (accepted : (conclude platform strMail helper found).1 = true) :
    (EncodeUtil.UnicodeToUtf8 platform name, content) ∈
      (conclude platform strMail helper found).2.1 := by
  rw [conclude] at accepted ⊢
  dsimp only at accepted ⊢
  split at accepted
  · cases accepted
  · next continues =>
      rw [if_neg continues, writtenFiles, List.mem_map]
      refine ⟨(name, content), List.mem_filter.mpr ⟨?_, ?_⟩, rfl⟩
      · exact foldl_record_attachment_subset platform found.parts _ known
      · simp [named, filled, opens]

theorem conclude_true {found : Analysis} (helper : MailHelper)
    (accepted : helper.bIsFromMobilePlatform = true ∨
      (conclude platform strMail create found).1 = true) :
    (conclude platform strMail helper found).1 = true := by
  rw [conclude]
  dsimp only
  split
  · next rejected =>
      rw [conclude] at accepted
      simp only [Bool.and_eq_true, Bool.not_eq_true', Bool.or_eq_false_iff] at rejected
      simp [rejected.1, rejected.2.1, rejected.2.2, create] at accepted
  · rfl

theorem length_attachmentMail (count : Nat) : count < (attachmentMail count).text.length := by
  rw [attachmentMail_text]
  simp only [List.length_append, List.length_replicate]
  omega

theorem not_independent_of_true (working : platform.Working) (filled : strMail ≠ [])
    {found : Analysis} (result : analysis platform strMail = some found)
    (accepted : (conclude platform strMail create found).1 = true) :
    ¬ Independent platform strMail := by
  intro independent
  -- an attachment that is longer than all files of the mail
  generalize bound_eq : ((conclude platform strMail create found).2.1.map fun file =>
    file.2.length).sum = bound
  rcases afterMails_attachment platform (strMail.length + bound) with ⟨helper, returned, known⟩
  have other : strMail ∉ [(attachmentMail (strMail.length + bound)).text] := by
    intro member
    have long := length_attachmentMail (strMail.length + bound)
    rw [← List.mem_singleton.mp member] at long
    omega
  have agree := independent [] _ List.not_mem_nil other create helper rfl returned
  rw [extracted, extracted, analyzeBody_eq platform filled, analyzeBody_eq platform filled,
    result] at agree
  have written := files_kept known working.named (by simp [attachmentContent]) working.opens
    (conclude_true helper (.inr accepted) : (conclude platform strMail helper found).1 = true)
  have files := congrArg Extracted.files (Option.some.inj agree)
  dsimp only at files
  have member := List.mem_toFinset.mpr written
  rw [← files, List.mem_toFinset] at member
  have small : (attachmentContent (strMail.length + bound)).length ≤ bound := by
    refine Nat.le_trans ?_ (Nat.le_of_eq bound_eq)
    exact List.le_sum_of_mem (List.mem_map.mpr ⟨_, member, rfl⟩)
  have long : (attachmentContent (strMail.length + bound)).length = strMail.length + bound + 3 := by
    simp [attachmentContent, crlf]
  omega

theorem not_independent_of_false (working : platform.Working) (filled : strMail ≠ [])
    {found : Analysis} (result : analysis platform strMail = some found)
    (rejected : (conclude platform strMail create found).1 = false) :
    ¬ Independent platform strMail := by
  intro independent
  rcases afterMails_mobileMail working with ⟨helper, returned, flag⟩
  have other : strMail ∉ [mobileMail] := by
    intro member
    rw [List.mem_singleton.mp member, analysis_mobileMail working] at result
    cases result
    cases rejected
  have agree := independent [] _ List.not_mem_nil other create helper rfl returned
  rw [extracted, extracted, analyzeBody_eq platform filled, analyzeBody_eq platform filled,
    result] at agree
  have values := congrArg Extracted.value (Option.some.inj agree)
  dsimp only at values
  rw [rejected, conclude_true helper (.inl flag)] at values
  cases values

/-- After mails without attachments of which none is taken for one from a mobile platform, the
same is extracted from a mail. After arbitrary ones, it is only if the mail is empty or the call
does not return. -/
theorem extracted_after (platform : Platform) (strMail : Bytes) :
    (∀ left right : List Bytes, (∀ other ∈ left, Plain platform other) →
      (∀ other ∈ right, Plain platform other) →
      ∀ leftHelper rightHelper, afterMails platform left = some leftHelper →
        afterMails platform right = some rightHelper →
        extracted platform leftHelper strMail = extracted platform rightHelper strMail) ∧
      (platform.Working → (Independent platform strMail ↔
        strMail = [] ∨ analyzeBody platform strMail create = none)) := by
  refine ⟨?_, fun working => ⟨?_, ?_⟩⟩
  · intro left right plainLeft plainRight leftHelper rightHelper afterLeft afterRight
    have keptLeft := afterMails_plain plainLeft afterLeft
    have keptRight := afterMails_plain plainRight afterRight
    exact extracted_congr platform strMail (keptLeft.1.trans keptRight.1.symm)
      (keptLeft.2.trans keptRight.2.symm)
  · intro independent
    by_cases filled : strMail = []
    · exact .inl filled
    · right
      rw [analyzeBody_eq platform filled]
      cases result : analysis platform strMail with
      | none => rfl
      | some found =>
          cases value : (conclude platform strMail create found).1 with
          | true => exact absurd independent (not_independent_of_true working filled result value)
          | false => exact absurd independent (not_independent_of_false working filled result value)
  · rintro unread left right _ _ leftHelper rightHelper _ _
    by_cases filled : strMail = []
    · rw [filled, extracted, extracted]
      simp [analyzeBody]
    · have absent : analysis platform strMail = none := by
        have returned := unread.resolve_left filled
        rw [analyzeBody_eq platform filled] at returned
        exact Option.map_eq_none_iff.mp returned
      rw [extracted, extracted, analyzeBody_eq platform filled, analyzeBody_eq platform filled,
        absent]
      rfl

theorem asciiPlatform_working : asciiPlatform.Working := ⟨by decide, rfl, rfl⟩

theorem analysis_of_small {strMail : Bytes}
    (untagged : findFrom (ascii "boundary=\"") strMail 0 = none)
    (notMobile : looksMobile strMail = false) :
    analysis platform strMail = some ⟨[], none, []⟩ := by
  rw [analysis, boundaryTags_absent untagged, Option.bind_some, List.isEmpty_nil, if_pos rfl,
    mobileAnalysis, notMobile]
  rfl

theorem extracted_letter : extracted asciiPlatform create letter.text =
    some ⟨true, [(ascii "a", ascii "PK\r\n")].toFinset, [(ascii "hi\r\n").map UInt8.toUInt16],
      [(ascii "<b>hi</b>\r\n").map UInt8.toUInt16]⟩ := by
  have analyzed := analyzeBody_mail (held_of_short letter_short) letter_apart letter_distinct
    (fun leaf member => (letter_recordable leaf member).readable_isSome) letter_untyped create
  rw [extracted, analyzed]
  decide +kernel

/-- A letter with two texts and a file after another mail, and an empty one after any. -/
theorem extracted_after_x :
    extracted asciiPlatform { create with strMail := ascii "x" } letter.text =
        some ⟨true, [(ascii "a", ascii "PK\r\n")].toFinset, [(ascii "hi\r\n").map UInt8.toUInt16],
          [(ascii "<b>hi</b>\r\n").map UInt8.toUInt16]⟩ ∧
      Independent asciiPlatform [] := by
  have found : analysis asciiPlatform (ascii "x") = some ⟨[], none, []⟩ :=
    analysis_of_small (by decide) (by decide)
  have plain : ∀ other ∈ [ascii "x"], Plain asciiPlatform other := by
    intro other member result known
    rw [List.mem_singleton.mp member, found] at known
    cases known
    exact ⟨rfl, fun _ member => absurd member List.not_mem_nil⟩
  have after : afterMails asciiPlatform [ascii "x"] =
      some { create with strMail := ascii "x" } := by
    rw [afterMails, List.foldlM_cons, analyzeBody_eq asciiPlatform (by decide), found]
    rfl
  have same := (extracted_after asciiPlatform letter.text).1 [ascii "x"] [] plain
    (fun _ member => absurd member List.not_mem_nil) _ create after rfl
  exact ⟨same.trans extracted_letter,
    ((extracted_after asciiPlatform []).2 asciiPlatform_working).mpr (.inl rfl)⟩

/-- One mail is rejected or not, and another writes the files of earlier mails or not. -/
theorem not_independent_letter :
    ¬ Independent asciiPlatform (ascii "x") ∧ ¬ Independent asciiPlatform letter.text := by
  constructor
  · exact not_independent_of_false asciiPlatform_working (by decide)
      (analysis_of_small (by decide) (by decide)) rfl
  · have filled : letter.text ≠ [] := by
      decide
    have analyzed := analyzeBody_mail (held_of_short letter_short) letter_apart letter_distinct
      (fun leaf member => (letter_recordable leaf member).readable_isSome) letter_untyped create
    rw [analyzeBody_eq asciiPlatform filled] at analyzed
    rcases Option.map_eq_some_iff.mp analyzed with ⟨found, result, concluded⟩
    exact not_independent_of_true asciiPlatform_working filled result
      (congrArg Prod.fst concluded)

end MailHelper

end MyBookSources.RecvMail
