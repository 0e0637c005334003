import MyBookSources.RecvMail.EncodedHeaders

/-! # Reading headers with encoded words

A header of words and separators is read word by word, unless a word is cut behind one of the
later words. Every word then adds what its bytes are converted to.
-/

namespace MyBookSources.RecvMail

open StringUtil (find_eq_none_iff find_unbordered)

/-! ## Words in a row -/

structure Spaced (entries : Entries) : Prop where
  blank : ∀ entry ∈ entries, Blank entry.2
  apart : ∀ entry ∈ entries.dropLast, entry.2 ≠ []

theorem Entries.text_cons (word : Word) (behind : Bytes) (entries : Entries) :
    Entries.text ((word, behind) :: entries) = word.bytes ++ (behind ++ entries.text) := by
  change (word.bytes ++ behind) ++ entries.text = _
  rw [List.append_assoc]

theorem Word.bytes_append (word : Word) (rest : Bytes) :
    word.bytes ++ rest = ascii "=?" ++ (word.body ++ 63 :: 61 :: rest) := by
  have mark : ascii "?=" = [63, 61] := by decide
  rw [Word.bytes, mark, List.append_assoc, List.append_assoc]
  rfl

namespace Spaced

theorem of_suffix {entries others : Entries} (spaced : Spaced entries)
    (suffix : others <:+ entries) : Spaced others where
  blank entry member := spaced.blank entry (suffix.subset member)
  apart entry member := by
    rcases suffix with ⟨front, rfl⟩
    refine spaced.apart entry ?_
    have filled : others ≠ [] := by
      rintro rfl
      cases member
    rw [List.dropLast_append_of_ne_nil filled]
    exact List.mem_append_right _ member

variable {word : Word} {behind : Bytes} {entries : Entries}

theorem head (spaced : Spaced ((word, behind) :: entries)) :
    Blank behind ∧ (entries ≠ [] → behind ≠ []) := by
  refine ⟨spaced.blank _ List.mem_cons_self, fun filled => ?_⟩
  rcases List.exists_cons_of_ne_nil filled with ⟨next, others, rfl⟩
  exact spaced.apart (word, behind) (by rw [List.dropLast_cons_cons]; exact List.mem_cons_self)

theorem tail (spaced : Spaced ((word, behind) :: entries)) : Spaced entries :=
  spaced.of_suffix (List.suffix_cons _ _)

end Spaced

theorem Word.isSeparator_bytes (word : Word) : ∀ byte ∈ word.bytes, isSeparator byte = false := by
  have visible : ∀ byte, Visible byte → isSeparator byte = false := by
    intro byte visible
    rw [← Bool.not_eq_true, isSeparator, List.contains_iff_mem]
    intro member
    simp only [SEPARATORS, List.mem_cons, List.not_mem_nil, or_false] at member
    rcases member with rfl | rfl | rfl | rfl <;> exact absurd visible (by decide)
  have marks : (ascii "=?").all (fun byte => !isSeparator byte) = true ∧
      (ascii "?=").all (fun byte => !isSeparator byte) = true := by decide
  simp only [List.all_eq_true, Bool.not_eq_true'] at marks
  intro byte member
  rcases List.mem_append.mp member with mark | rest
  · exact marks.1 byte mark
  · rcases List.mem_append.mp rest with body | mark
    · exact visible byte (word.visible_body byte body)
    · exact marks.2 byte mark

theorem Entries.separator_mem {entries : Entries} {byte : Byte} (member : byte ∈ entries.text)
    (separator : isSeparator byte = true) : ∃ entry ∈ entries, byte ∈ entry.2 := by
  rcases List.mem_flatMap.mp member with ⟨⟨word, behind⟩, inEntries, own⟩
  rcases List.mem_append.mp own with inWord | inBehind
  · rw [word.isSeparator_bytes byte inWord] at separator
    cases separator
  · exact ⟨_, inEntries, inBehind⟩

/-! ## Where a word is cut -/

/-- The separators behind the word are found before those behind all later words. -/
def PrecedesAll (behind : Bytes) (entries : Entries) : Prop :=
  ∀ entry ∈ entries, Precedes behind entry.2

theorem mem_behind_iff {word : Word} {behind : Bytes} {entries : Entries}
    (spaced : Spaced ((word, behind) :: entries)) {kind : Byte}
    (found : firstKind (behind ++ entries.text) = some kind) :
    kind ∈ behind ↔ PrecedesAll behind entries := by
  rcases firstKind_spec found with ⟨member, first⟩
  have separator : isSeparator kind = true := by
    rw [isSeparator, List.contains_iff_mem]
    exact List.mem_of_find?_eq_some found
  constructor
  · intro own entry inEntries byte inByte
    refine ⟨kind, own, first byte ?_ (spaced.tail.blank entry inEntries byte inByte)⟩
    refine List.mem_append_right _ (List.mem_flatMap.mpr ⟨entry, inEntries, ?_⟩)
    exact List.mem_append_right _ inByte
  · intro precedes
    rcases List.mem_append.mp member with own | later
    · exact own
    · rcases Entries.separator_mem later separator with ⟨entry, inEntries, inByte⟩
      rcases precedes entry inEntries kind inByte with ⟨own, inBehind, order⟩
      have other := first own (List.mem_append_left _ inBehind) (spaced.head.1 own inBehind)
      have known : own ∈ SEPARATORS := by
        have separator := spaced.head.1 own inBehind
        rwa [isSeparator, List.contains_iff_mem] at separator
      rwa [(List.idxOf_inj known).mp (Nat.le_antisymm order other)] at inBehind

section

variable {word : Word} {behind : Bytes} {entries : Entries}

theorem firstKind_isSome (spaced : Spaced ((word, behind) :: entries)) (more : entries ≠ []) :
    ∃ kind, firstKind (behind ++ entries.text) = some kind := by
  rcases spaced.head with ⟨blank, filled⟩
  rcases List.exists_mem_of_ne_nil _ (filled more) with ⟨byte, member⟩
  cases found : firstKind (behind ++ entries.text) with
  | none =>
      have solid := firstKind_eq_none found byte (List.mem_append_left _ member)
      rw [blank byte member] at solid
      cases solid
  | some kind => exact ⟨kind, rfl⟩

theorem blank_cutAt (spaced : Spaced ((word, behind) :: entries))
    (precedes : PrecedesAll behind entries) : Blank (cutAt (behind ++ entries.text)) := by
  rcases spaced.head with ⟨blank, _⟩
  intro byte member
  rw [cutAt_eq] at member
  by_cases more : entries = []
  · rw [more, Entries.text, List.flatMap_nil, List.append_nil] at member
    split at member
    · exact blank byte ((List.takeWhile_prefix _).subset member)
    · exact blank byte member
  · rcases firstKind_isSome spaced more with ⟨kind, found⟩
    have own := (mem_behind_iff spaced found).mpr precedes
    rw [found] at member
    dsimp only at member
    rcases List.eq_append_cons_of_mem own with ⟨front, back, rfl, clean⟩
    rw [List.append_assoc, List.takeWhile_append_of_pos (decide_ne_of_not_mem clean)] at member
    have inFront : byte ∈ front := by simpa using member
    exact blank byte (List.mem_append_left _ inFront)

/-- The word is cut where the next one is: that is in front of the kind, which is found behind
it as well. -/
theorem cutAt_next {next : Word} {later : Bytes}
    (spaced : Spaced ((word, behind) :: (next, later) :: entries))
    (skips : ¬ PrecedesAll behind ((next, later) :: entries)) :
    cutAt (behind ++ Entries.text ((next, later) :: entries)) =
      behind ++ (next.bytes ++ cutAt (later ++ entries.text)) := by
  rcases firstKind_isSome spaced (List.cons_ne_nil _ _) with ⟨kind, found⟩
  have own : kind ∉ behind := fun member => skips ((mem_behind_iff spaced found).mp member)
  have separator : isSeparator kind = true := by
    rw [isSeparator, List.contains_iff_mem]
    exact List.mem_of_find?_eq_some found
  have solid : kind ∉ next.bytes := by
    intro inWord
    rw [next.isSeparator_bytes kind inWord] at separator
    cases separator
  rcases firstKind_spec found with ⟨member, first⟩
  rw [Entries.text_cons] at found member first ⊢
  have inRest : kind ∈ later ++ entries.text := by
    rcases List.mem_append.mp member with inBehind | rest
    · exact absurd inBehind own
    · exact (List.mem_append.mp rest).resolve_left solid
  have same : firstKind (later ++ entries.text) = some kind :=
    firstKind_eq_some inRest separator fun byte inText =>
      first byte (List.mem_append_right _ (List.mem_append_right _ inText))
  rw [cutAt_eq, cutAt_eq, found, same]
  dsimp only
  rw [List.takeWhile_append_of_pos (decide_ne_of_not_mem own),
    List.takeWhile_append_of_pos (decide_ne_of_not_mem solid)]

/-- What the loop takes for one word, and what it goes on with: the word alone, or with some of
the words behind it. -/
theorem exists_cut (spaced : Spaced ((word, behind) :: entries)) :
    ∃ middle blanks last remaining,
      63 :: 61 :: (behind ++ entries.text) = middle ++ 63 :: 61 :: (last ++ remaining.text) ∧
      63 :: 61 :: cutAt (behind ++ entries.text) = middle ++ 63 :: 61 :: blanks ∧
      Blank blanks ∧
      ((PrecedesAll behind entries ∧ middle = [] ∧ last = behind ∧ remaining = entries) ∨
        (¬ PrecedesAll behind entries ∧
          ∃ other, (other, last) :: remaining <:+ entries)) := by
  induction entries generalizing word behind with
  | nil =>
      have precedes : PrecedesAll behind [] := fun _ member => absurd member List.not_mem_nil
      exact ⟨[], _, behind, [], rfl, rfl, blank_cutAt spaced precedes,
        .inl ⟨precedes, rfl, rfl, rfl⟩⟩
  | cons entry entries induction =>
      rcases entry with ⟨next, later⟩
      by_cases precedes : PrecedesAll behind ((next, later) :: entries)
      · exact ⟨[], _, behind, (next, later) :: entries, rfl, rfl, blank_cutAt spaced precedes,
          .inl ⟨precedes, rfl, rfl, rfl⟩⟩
      · rcases induction spaced.tail with
          ⟨middle, blanks, last, remaining, text, cut, blanksOnly, result⟩
        refine ⟨63 :: 61 :: (behind ++ (ascii "=?" ++ (next.body ++ middle))), blanks, last,
          remaining, ?_, ?_, blanksOnly, .inr ⟨precedes, ?_⟩⟩
        · rw [Entries.text_cons, next.bytes_append, text]
          simp only [List.cons_append, List.append_assoc]
        · rw [cutAt_next spaced precedes, next.bytes_append, cut]
          simp only [List.cons_append, List.append_assoc]
        · rcases result with ⟨_, _, rfl, rfl⟩ | ⟨_, other, suffix⟩
          · exact ⟨next, List.suffix_refl _⟩
          · exact ⟨other, suffix.trans (List.suffix_cons _ _)⟩

end

/-! ## One word -/

section

variable (platform : Platform)

theorem scanWords_clean {text : Bytes} (clean : ¬ ascii "=?" <:+: text)
    (strTemp : Bytes) (strResult : Wide) :
    scanWords platform text 0 strTemp strResult = some strResult := by
  apply scanWords_absent
  rw [findFrom, if_neg (Nat.not_lt_zero _), List.drop_zero, (find_eq_none_iff _ _).mpr clean]
  rfl

theorem scanWords_mark {lead : Bytes} (clean : 63 ∉ lead) (text strTemp : Bytes)
    (strResult : Wide) :
    scanWords platform (lead ++ (ascii "=?" ++ text)) 0 strTemp strResult =
      wordStep platform text strTemp strResult (scanWords platform text) := by
  have mark : ascii "=?" = 61 :: [63] := by decide
  have found : findFrom (ascii "=?") (lead ++ (ascii "=?" ++ text)) 0 = some lead.length := by
    have absent : ¬ [61, 63] <:+: lead := fun within => clean (within.subset (by simp))
    rw [findFrom, if_neg (Nat.not_lt_zero _), List.drop_zero, mark,
      find_unbordered (by decide) absent]
    rfl
  have behind : (lead ++ (ascii "=?" ++ text)).drop (lead.length + 2) = text := by
    rw [← List.drop_drop, List.drop_left]
    rfl
  have inside : lead.length + 2 ≤ (lead ++ (ascii "=?" ++ text)).length := by
    rw [List.length_append, mark, List.length_append, List.length_cons, List.length_singleton]
    omega
  have rest : (fun skip => scanWords platform (lead ++ (ascii "=?" ++ text))
      (lead.length + 2 + skip)) = scanWords platform text := by
    funext skip strTemp strResult
    rw [scanWords_drop platform inside, behind]
  rw [scanWords_found platform _ _ found, behind, rest]

theorem scanWords_word {lead : Bytes} (clean : 63 ∉ lead) (word : Word)
    {middle blanks rest : Bytes} (cut : cutAt (word.body ++ middle ++ 63 :: 61 :: rest) =
      word.body ++ middle ++ 63 :: 61 :: blanks) (blank : Blank blanks) (strTemp : Bytes)
    (strResult : Wide) :
    scanWords platform
        (lead ++ (ascii "=?" ++ (word.body ++ middle ++ 63 :: 61 :: rest))) 0 strTemp strResult =
      (decodeWord platform word.code (word.text ++ middle) strTemp).bind fun strTemp =>
        scanWords platform (61 :: rest) 0 strTemp
          (strResult ++ converted platform word.charset strTemp) := by
  have noMark : 63 ∉ word.charset := fun member => (word.named.visible 63 member).2 rfl
  have body : word.body ++ middle =
      word.charset ++ 63 :: word.code :: 63 :: (word.text ++ middle) := by
    rw [Word.body, List.append_assoc]
    rfl
  have coded : behindFirst (word.body ++ middle) = word.code :: 63 :: (word.text ++ middle) := by
    rw [body, behindFirst_append noMark]
  have name : (word.body ++ middle).idxOf? 63 = some word.charset.length := by
    rw [body, idxOf_append_cons noMark]
  have charset : (word.body ++ middle).take word.charset.length = word.charset := by
    rw [body, List.take_left]
  have text : behindFirst (word.code :: 63 :: (word.text ++ middle)) = word.text ++ middle := by
    have clean : 63 ∉ [word.code] := by
      rw [List.mem_singleton]
      exact Ne.symm word.visible_code.2
    exact behindFirst_append clean _
  have filled : (word.text ++ middle).isEmpty = false := by
    rw [List.isEmpty_eq_false_iff]
    exact List.append_ne_nil_of_left_ne_nil word.text_ne_nil _
  have inside : (word.body ++ middle).length + 1 ≤
      (word.body ++ middle ++ 63 :: 61 :: rest).length := by
    have whole : (word.body ++ middle ++ 63 :: 61 :: rest).length =
        (word.body ++ middle).length + (63 :: 61 :: rest).length := List.length_append
    rw [whole, List.length_cons]
    omega
  have behind : (word.body ++ middle ++ 63 :: 61 :: rest).drop
      ((word.body ++ middle).length + 1) = 61 :: rest := by
    rw [← List.drop_drop, List.drop_left]
    rfl
  have skip : (((word.body ++ middle).length : Int) + 1).toNat =
      (word.body ++ middle).length + 1 := by omega
  rw [scanWords_mark platform clean, wordStep, scanPhase_eq cut blank]
  dsimp only
  rw [skip, coded, text, name, filled, if_neg (by decide)]
  dsimp only
  rw [charset, List.getD_cons_zero]
  cases decodeWord platform word.code (word.text ++ middle) strTemp with
  | none => rfl
  | some strTemp =>
      have later := scanWords_drop platform inside 0 strTemp
        (strResult ++ converted platform word.charset strTemp)
      rw [Nat.add_zero, behind] at later
      exact later

theorem Word.converted_eq (word : Word) (strTemp : Bytes) :
    converted platform word.charset strTemp =
      platform.multiByteToWideChar word.page (cString strTemp) := by
  have whole : cString word.charset = word.charset := by
    rw [cString_eq_iff]
    intro member
    exact absurd (word.named.visible 0 member).1 (by decide)
  have names : ascii "GB2312" ≠ ascii "UTF-8" := by decide
  rw [converted, getCharset, whole]
  rcases word.named with ⟨name, page⟩ | ⟨name, page⟩
  · rw [name, if_pos rfl, page]
    rfl
  · rw [name, if_neg names, if_pos rfl, page]
    rfl

theorem scanWords_cons {lead : Bytes} (clean : 63 ∉ lead) {word : Word} {behind : Bytes}
    {entries : Entries} (spaced : Spaced ((word, behind) :: entries)) :
    ∃ middle last remaining,
      (∀ strTemp strResult,
        scanWords platform (lead ++ Entries.text ((word, behind) :: entries)) 0 strTemp
            strResult =
          (decodeWord platform word.code (word.text ++ middle) strTemp).bind fun strTemp =>
            scanWords platform ((61 :: last) ++ Entries.text remaining) 0 strTemp
              (strResult ++ platform.multiByteToWideChar word.page (cString strTemp))) ∧
      63 ∉ 61 :: last ∧
      ((PrecedesAll behind entries ∧ middle = [] ∧ last = behind ∧ remaining = entries) ∨
        (¬ PrecedesAll behind entries ∧ ∃ other, (other, last) :: remaining <:+ entries)) := by
  rcases exists_cut spaced with ⟨middle, blanks, last, remaining, text, cut, blank, result⟩
  have solid : ∀ byte ∈ word.body ++ [63, 61], isSeparator byte = false := by
    intro byte member
    refine word.isSeparator_bytes byte ?_
    have whole := word.bytes_append []
    rw [List.append_nil] at whole
    rw [whole]
    exact List.mem_append_right _ member
  have lastBlank : Blank last := by
    rcases result with ⟨_, _, rfl, _⟩ | ⟨_, other, suffix⟩
    · exact spaced.head.1
    · exact spaced.tail.blank _ (suffix.subset List.mem_cons_self)
  refine ⟨middle, last, remaining, fun strTemp strResult => ?_, ?_, result⟩
  · have phased : cutAt (word.body ++ 63 :: 61 :: (behind ++ Entries.text entries)) =
        word.body ++ 63 :: 61 :: cutAt (behind ++ Entries.text entries) := by
      have kept := cutAt_append solid (behind ++ Entries.text entries)
      rwa [List.append_assoc, List.append_assoc] at kept
    rw [text, cut, ← List.append_assoc, ← List.append_assoc] at phased
    rw [Entries.text_cons, word.bytes_append, text, ← List.append_assoc word.body,
      scanWords_word platform clean word phased blank]
    simp only [word.converted_eq, List.cons_append]
  · rw [List.mem_cons, not_or]
    exact ⟨by decide, fun member => absurd (lastBlank 63 member) (by decide)⟩

theorem not_infix_of_clean {lead : Bytes} (clean : 63 ∉ lead) : ¬ ascii "=?" <:+: lead := by
  intro within
  exact clean (within.subset (by decide))

/-! ## Words that are not reached -/

/-- A word adds at most one character here, and one that is cut behind another leaves that
one out. -/
theorem length_le_of_loop (few : ∀ page bytes, (platform.multiByteToWideChar page bytes).length ≤ 1)
    {lead : Bytes} (clean : 63 ∉ lead) {entries : Entries} (spaced : Spaced entries)
    {strTemp : Bytes} {strResult result : Wide}
    (loop : scanWords platform (lead ++ entries.text) 0 strTemp strResult = some result) :
    result.length ≤ strResult.length + entries.length ∧
      (result.length = strResult.length + entries.length →
        entries.Pairwise fun earlier later => Precedes earlier.2 later.2) := by
  induction size : entries.length using Nat.strong_induction_on
    generalizing lead entries strTemp strResult with
  | _ count induction =>
      cases entries with
      | nil =>
          rw [Entries.text, List.flatMap_nil, List.append_nil,
            scanWords_clean platform (not_infix_of_clean clean)] at loop
          cases loop
          exact ⟨Nat.le_add_right _ _, fun _ => .nil⟩
      | cons entry entries =>
          rcases entry with ⟨word, behind⟩
          rw [List.length_cons] at size
          rcases scanWords_cons platform clean spaced with
            ⟨middle, last, remaining, turn, cleanLast, cases⟩
          rw [turn] at loop
          rcases Option.bind_eq_some_iff.mp loop with ⟨decoded, _, later⟩
          have one := few word.page (cString decoded)
          rcases cases with ⟨precedes, rfl, rfl, rfl⟩ | ⟨skips, other, suffix⟩
          · have rest := induction remaining.length (by omega) cleanLast spaced.tail later rfl
            rw [List.length_append] at rest
            refine ⟨by omega, fun full => List.pairwise_cons.mpr ⟨precedes, rest.2 (by omega)⟩⟩
          · have shorter := suffix.length_le
            rw [List.length_cons] at shorter
            have spacedRest := (spaced.tail.of_suffix suffix).tail
            have rest := induction remaining.length (by omega) cleanLast spacedRest later rfl
            rw [List.length_append] at rest
            exact ⟨by omega, fun full => by omega⟩

/-! ## Words that are read one by one -/

theorem scanWords_ordered {lead : Bytes} (clean : 63 ∉ lead) {entries : Entries}
    (spaced : Spaced entries) (short : ∀ entry ∈ entries, entry.1.text.length < 2 ^ 31)
    (ordered : entries.Pairwise fun earlier later => Precedes earlier.2 later.2)
    (strTemp : Bytes) (strResult : Wide) :
    scanWords platform (lead ++ entries.text) 0 strTemp strResult =
      if ∀ entry ∈ entries, entry.1.Fits then
        some (strResult ++ entries.flatMap fun entry =>
          platform.multiByteToWideChar entry.1.page (cString entry.1.taken))
      else none := by
  induction entries generalizing lead strTemp strResult with
  | nil =>
      rw [Entries.text, List.flatMap_nil, List.append_nil,
        scanWords_clean platform (not_infix_of_clean clean),
        if_pos fun _ member => absurd member List.not_mem_nil, List.flatMap_nil, List.append_nil]
  | cons entry entries induction =>
      rcases entry with ⟨word, behind⟩
      rcases List.pairwise_cons.mp ordered with ⟨precedes, rest⟩
      rcases List.forall_mem_cons.mp short with ⟨shortWord, shortRest⟩
      rcases scanWords_cons platform clean spaced with
        ⟨middle, last, remaining, turn, cleanLast, ⟨_, rfl, rfl, rfl⟩ | ⟨skips, _⟩⟩
      · rcases word.decodeWord_eq platform shortWord strTemp with ⟨handed, same, decoded⟩
        rw [turn, List.append_nil, decoded]
        by_cases fits : word.Fits
        · rw [if_pos fits, Option.bind_some, induction cleanLast spaced.tail shortRest rest, same,
            List.flatMap_cons, ← List.append_assoc]
          refine if_congr ?_ rfl rfl
          rw [List.forall_mem_cons, and_iff_right fits]
        · rw [if_neg fits, Option.bind_none, if_neg]
          intro all
          exact fits (all _ List.mem_cons_self)
      · exact absurd precedes skips

end

end MyBookSources.RecvMail
