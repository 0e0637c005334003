import MyBookSources.RecvMail.HeaderReading
import Mathlib.Algebra.Order.BigOperators.Group.List

/-! # What headers with encoded words mean

Which headers are read as they are meant shows in two conversions. One turns every word and every
literal text into one character, so that a missing one is noticed. The other keeps the bytes.
-/

namespace MyBookSources.RecvMail

open StringUtil (find_eq_none_iff find_isSome_iff strip_eq_nil_iff)

/-! ## Conversions -/

def conversions (ofWord : CodePage → Bytes → Wide) (ofLiteral : Bytes → Wide) : Platform where
  multiByteToWideChar := ofWord
  mbstowcs := ofLiteral
  wideCharToMultiByte _ := []
  opens _ := true
  table _ := 0
  behind _ := 0

def sign (char : UInt16) (text : Bytes) : Wide := if text = [] then [] else [char]

def signing : Platform := conversions (fun _ => sign 1) (sign 2)

def widen (text : Bytes) : Wide := text.map UInt8.toUInt16

def widening : Platform := conversions (fun _ => widen) widen

theorem signing_converts : Converts signing := ⟨fun _ => rfl, rfl⟩

theorem widening_converts : Converts widening := ⟨fun _ => rfl, rfl⟩

theorem sign_of_ne_nil {text : Bytes} (filled : text ≠ []) (char : UInt16) :
    sign char text = [char] :=
  if_neg filled

theorem length_sign (char : UInt16) (text : Bytes) : (sign char text).length ≤ 1 := by
  rw [sign]
  split
  · exact Nat.zero_le 1
  · exact Nat.le_refl 1

theorem widen_injective : Function.Injective widen := by
  refine List.map_injective_iff.mpr fun first second same => ?_
  have values := congrArg UInt16.toNat same
  rw [UInt8.toNat_toUInt16, UInt8.toNat_toUInt16] at values
  exact UInt8.toNat_inj.mp values

theorem widen_flatMap {α : Type} (items : List α) (part : α → Bytes) :
    items.flatMap (fun item => widen (part item)) = widen (items.flatMap part) := by
  rw [widen, List.map_flatMap]
  rfl

/-! ## What is left out -/

theorem mem_of_loop {platform : Platform} {OfWord : UInt16 → Prop}
    (words : ∀ page bytes, ∀ char ∈ platform.multiByteToWideChar page bytes, OfWord char)
    {text strTemp : Bytes} {lOffset : Nat} {strResult result : Wide}
    (before : ∀ char ∈ strResult, OfWord char)
    (loop : scanWords platform text lOffset strTemp strResult = some result) :
    ∀ char ∈ result, OfWord char := by
  induction size : text.length - lOffset using Nat.strong_induction_on
    generalizing lOffset strTemp strResult with
  | _ count induction =>
      cases found : findFrom (ascii "=?") text lOffset with
      | none =>
          rw [scanWords_absent platform _ _ found] at loop
          cases loop
          exact before
      | some start =>
          have inside := findFrom_le found
          have two : (ascii "=?").length = 2 := by decide
          rw [scanWords_found platform _ _ found, wordStep] at loop
          split at loop
          · exact induction _ (by omega) before loop rfl
          · split at loop
            · cases loop
            · next decoded _ =>
              refine induction _ (by omega) ?_ loop rfl
              intro char member
              rcases List.mem_append.mp member with old | new
              · exact before char old
              · rw [converted] at new
                split at new
                · exact words _ _ char new
                · exact words _ _ char new

namespace Header

variable {header : Header}

theorem exists_mark (filled : header.entries ≠ []) :
    ∃ place, findFrom (ascii "=?") header.text 0 = some place := by
  have within : ascii "=?" <:+: header.text := by
    rcases List.exists_cons_of_ne_nil filled with ⟨⟨word, behind⟩, others, entries⟩
    rw [text, entries, Entries.text_cons, word.bytes_append]
    exact ⟨header.front, _, List.append_assoc _ _ _⟩
  rw [findFrom, if_neg (Nat.not_lt_zero _), List.drop_zero]
  rcases Option.isSome_iff_exists.mp ((find_isSome_iff _ _).mpr within) with ⟨place, found⟩
  exact ⟨place, by rw [found]; rfl⟩

theorem analyzeString_words (platform : Platform) (short : header.text.length < 2 ^ 31)
    (filled : header.entries ≠ []) :
    analyzeString platform header.text =
      scanWords platform (header.front ++ header.entries.text) 0 [] [] := by
  rcases exists_mark filled with ⟨place, found⟩
  have inside := findFrom_le found
  rw [analyzeString, found, position_some (by omega), if_neg (by omega)]
  exact @analyzeStringLoop_eq platform header.text short _ 0 (by omega) [] []

theorem short_words (short : header.text.length < 2 ^ 31) :
    ∀ entry ∈ header.entries, entry.1.text.length < 2 ^ 31 := by
  rintro ⟨word, behind⟩ member
  rcases List.append_of_mem member with ⟨before, after, entries⟩
  rw [text, entries, Entries.text] at short
  simp only [List.flatMap_append, List.flatMap_cons, List.length_append, Word.bytes, Word.body,
    List.length_cons] at short
  dsimp only
  omega

theorem analyzeString_plain (platform : Platform) (plain : header.entries = []) :
    analyzeString platform header.text = some (platform.mbstowcs (cString header.front)) := by
  have text : header.text = header.front := by
    rw [Header.text, plain]
    exact List.append_nil _
  have absent : findFrom (ascii "=?") header.front 0 = none := by
    rw [findFrom, if_neg (Nat.not_lt_zero _), List.drop_zero,
      (find_eq_none_iff _ _).mpr header.frontClean]
    rfl
  rw [text, analyzeString, absent, position_none]
  exact if_pos rfl

theorem meaning_words (platform : Platform) (filled : header.entries ≠ []) :
    header.meaning platform = platform.mbstowcs (literalText header.front) ++
      header.entries.flatMap fun entry =>
        platform.multiByteToWideChar entry.1.page entry.1.data ++
          platform.mbstowcs (literalText entry.2) :=
  if_neg (by rwa [List.isEmpty_iff])

theorem meaning_plain (platform : Platform) (plain : header.entries = []) :
    header.meaning platform = platform.mbstowcs header.front :=
  if_pos (List.isEmpty_iff.mpr plain)

end Header

theorem literalText_eq_nil_iff (text : Bytes) : literalText text = [] ↔ Blank text :=
  strip_eq_nil_iff isSeparator text

theorem blank_of_signs {text : Bytes} (words : ∀ char ∈ sign 2 (literalText text), char = 1) :
    Blank text := by
  rw [← literalText_eq_nil_iff]
  by_contra filled
  rw [sign_of_ne_nil filled] at words
  exact absurd (words 2 List.mem_cons_self) (by decide)

theorem Header.blank_of_reads {header : Header} (short : header.text.length < 2 ^ 31)
    (reads : ReadsHeader header)
    (filled : header.entries ≠ []) :
    Blank header.front ∧ ∀ entry ∈ header.entries, Blank entry.2 := by
  have loop := reads signing signing_converts
  rw [header.analyzeString_words signing short filled] at loop
  have ofWord : ∀ page bytes, ∀ char ∈ signing.multiByteToWideChar page bytes, char = 1 := by
    intro page bytes char member
    change char ∈ sign 1 bytes at member
    rw [sign] at member
    split at member
    · cases member
    · exact List.mem_singleton.mp member
  have all := mem_of_loop ofWord (fun _ member => absurd member List.not_mem_nil) loop
  rw [header.meaning_words signing filled] at all
  refine ⟨blank_of_signs fun char member => all char (List.mem_append_left _ member), ?_⟩
  intro entry inEntries
  refine blank_of_signs fun char member => all char (List.mem_append_right _ ?_)
  exact List.mem_flatMap.mpr ⟨entry, inEntries, List.mem_append_right _ member⟩

/-! ## Words that are cut short -/

theorem Header.spaced {header : Header} (blank : ∀ entry ∈ header.entries, Blank entry.2) :
    Spaced header.entries :=
  ⟨blank, fun entry member => (header.apart entry member).1⟩

theorem clean_of_blank {text : Bytes} (blank : Blank text) : 63 ∉ text :=
  fun member => absurd (blank 63 member) (by decide)

theorem Header.meaning_blank {header : Header} {platform : Platform}
    (converts : Converts platform) (filled : header.entries ≠ [])
    (front : Blank header.front) (blank : ∀ entry ∈ header.entries, Blank entry.2) :
    header.meaning platform = header.entries.flatMap fun entry =>
      platform.multiByteToWideChar entry.1.page entry.1.data := by
  rw [header.meaning_words platform filled, (literalText_eq_nil_iff _).mpr front,
    converts.literals, List.nil_append]
  refine List.flatMap_congr fun entry member => ?_
  rw [(literalText_eq_nil_iff _).mpr (blank entry member), converts.literals, List.append_nil]

theorem Header.ordered_of_reads {header : Header} (short : header.text.length < 2 ^ 31)
    (reads : ReadsHeader header)
    (filled : header.entries ≠ []) :
    header.entries.Pairwise fun earlier later => Precedes earlier.2 later.2 := by
  rcases header.blank_of_reads short reads filled with ⟨front, blank⟩
  have loop := reads signing signing_converts
  rw [header.analyzeString_words signing short filled,
    header.meaning_blank signing_converts filled front blank] at loop
  have few : ∀ page bytes, (signing.multiByteToWideChar page bytes).length ≤ 1 :=
    fun _ bytes => length_sign 1 bytes
  refine (length_le_of_loop signing few (clean_of_blank front) (header.spaced blank) loop).2 ?_
  have ones : header.entries.flatMap (fun entry =>
      signing.multiByteToWideChar entry.1.page entry.1.data) =
      header.entries.map fun _ => 1 := by
    rw [← List.flatMap_pure_eq_map]
    exact List.flatMap_congr fun entry _ => sign_of_ne_nil entry.1.filled 1
  rw [ones, List.length_map, List.length_nil, Nat.zero_add]

/-! ## Bytes that are kept -/

theorem eq_of_flatMap_eq {α : Type} {items : List α} {short long : α → Bytes}
    (shorter : ∀ item ∈ items, (short item).length ≤ (long item).length)
    (same : items.flatMap short = items.flatMap long) :
    ∀ item ∈ items, short item = long item := by
  induction items with
  | nil => exact fun _ member => absurd member List.not_mem_nil
  | cons first items induction =>
      rw [List.forall_mem_cons] at shorter
      have rest : (items.flatMap short).length ≤ (items.flatMap long).length := by
        rw [List.length_flatMap, List.length_flatMap]
        exact List.sum_le_sum fun item member => shorter.2 item member
      rw [List.flatMap_cons, List.flatMap_cons] at same
      have lengths := congrArg List.length same
      rw [List.length_append, List.length_append] at lengths
      have parts := List.append_inj same (by omega)
      exact List.forall_mem_cons.mpr ⟨parts.1, induction shorter.2 parts.2⟩

namespace Word

variable (word : Word)

theorem cString_taken_eq_iff :
    cString word.taken = word.data ↔ 0 ∉ word.data ∧ (isQ word.code = true → 95 ∉ word.text) := by
  rw [← word.taken_eq_iff]
  constructor
  · intro same
    have length := congrArg List.length same
    rw [← word.length_taken] at length
    have whole : cString word.taken = word.taken :=
      (List.takeWhile_prefix _).eq_of_length length
    have taken := whole.symm.trans same
    rw [cString_eq_iff, taken] at whole
    exact ⟨whole, taken⟩
  · rintro ⟨noZero, taken⟩
    rwa [taken, cString_eq_iff]

theorem simple_iff : word.Simple ↔ word.Fits ∧ cString word.taken = word.data := by
  rw [word.cString_taken_eq_iff]
  exact ⟨fun ⟨noZero, fits, noBlank⟩ => ⟨fits, noZero, noBlank⟩,
    fun ⟨fits, noZero, noBlank⟩ => ⟨noZero, fits, noBlank⟩⟩

theorem length_cString_taken : (cString word.taken).length ≤ word.data.length := by
  rw [← word.length_taken]
  exact (List.takeWhile_prefix _).length_le

end Word

theorem Header.simple_of_reads {header : Header} (short : header.text.length < 2 ^ 31)
    (reads : ReadsHeader header)
    (filled : header.entries ≠ []) : ∀ entry ∈ header.entries, entry.1.Simple := by
  rcases header.blank_of_reads short reads filled with ⟨front, blank⟩
  have loop := reads widening widening_converts
  rw [header.analyzeString_words widening short filled,
    header.meaning_blank widening_converts filled front blank,
    scanWords_ordered widening (clean_of_blank front) (header.spaced blank)
      (header.short_words short) (header.ordered_of_reads short reads filled),
    List.nil_append] at loop
  split at loop
  · next fits =>
    have wide : widen (header.entries.flatMap fun entry => cString entry.1.taken) =
        widen (header.entries.flatMap fun entry => entry.1.data) := by
      rw [← widen_flatMap, ← widen_flatMap]
      exact Option.some.inj loop
    have kept := eq_of_flatMap_eq (fun entry _ => entry.1.length_cString_taken)
      (widen_injective wide)
    intro entry member
    exact entry.1.simple_iff.mpr ⟨fits entry member, kept entry member⟩
  · cases loop

/-! ## Headers that are read -/

theorem Header.reads_of_wellRead {header : Header} (short : header.text.length < 2 ^ 31)
    (wellRead : header.WellRead) : ReadsHeader header := by
  intro platform converts
  rw [Header.WellRead] at wellRead
  split at wellRead
  · next plain =>
    rw [header.analyzeString_plain platform plain, header.meaning_plain platform plain,
      (cString_eq_iff _).mpr wellRead]
  · next filled =>
    rcases wellRead with ⟨front, blank, ordered, simple⟩
    have fits : ∀ entry ∈ header.entries, entry.1.Fits :=
      fun entry member => (simple entry member).fits
    rw [header.analyzeString_words platform short filled,
      header.meaning_blank converts filled front blank,
      scanWords_ordered platform (clean_of_blank front) (header.spaced blank)
        (header.short_words short) ordered,
      if_pos fits, List.nil_append]
    congr 1
    refine List.flatMap_congr fun entry member => ?_
    rw [(entry.1.simple_iff.mp (simple entry member)).2]

/-- A header below two gigabytes is read as it is meant in these cases only: it has no words and
no zero byte, or nothing but separators beside its words, none of which reaches over another, and
the words are simple. -/
theorem reads_header_iff {header : Header} (short : header.text.length < 2 ^ 31) :
    ReadsHeader header ↔ header.WellRead := by
  refine ⟨fun reads => ?_, header.reads_of_wellRead short⟩
  rw [Header.WellRead]
  split
  · next plain =>
    have read := reads widening widening_converts
    rw [header.analyzeString_plain widening plain, header.meaning_plain widening plain] at read
    rw [← cString_eq_iff]
    exact widen_injective (Option.some.inj read)
  · next filled =>
    rcases header.blank_of_reads short reads filled with ⟨front, blank⟩
    exact ⟨front, blank, header.ordered_of_reads short reads filled,
      header.simple_of_reads short reads filled⟩

/-- The `a` of the subject of an answer. -/
def replyWord : Word where
  charset := ascii "UTF-8"
  page := .utf8
  code := 66
  data := [97]
  text := ascii "YQ=="
  named := .inl ⟨by decide, rfl⟩
  filled := List.cons_ne_nil _ _
  coded := .inl ⟨rfl, .inr rfl, by decide⟩

def wordHeader : Header where
  front := []
  entries := [(replyWord, [])]
  frontClean := by decide
  clean := by decide
  frontApart _ := by decide
  begins := by decide
  apart := by decide

theorem word_alone_read : ReadsHeader wordHeader := by
  have simple : replyWord.Simple := ⟨by decide, by decide, by decide⟩
  have filled : wordHeader.entries ≠ [] := List.cons_ne_nil _ _
  have short : wordHeader.text.length < 2 ^ 31 := by decide +kernel
  refine (reads_header_iff short).mpr ?_
  rw [Header.WellRead, if_neg filled]
  have behind : Blank [] := fun _ member => absurd member List.not_mem_nil
  exact ⟨behind, List.forall_mem_singleton.mpr behind, List.pairwise_singleton _ _,
    List.forall_mem_singleton.mpr simple⟩

def replyHeader : Header where
  front := ascii "Re: "
  entries := [(replyWord, [])]
  frontClean := by decide
  clean := by decide
  frontApart _ := by decide
  begins := by decide
  apart := by decide

theorem reply_mark_lost :
    replyHeader.text = ascii "Re: =?UTF-8?B?YQ==?=" ∧ ¬ ReadsHeader replyHeader := by
  refine ⟨by decide +kernel, fun reads => ?_⟩
  have short : replyHeader.text.length < 2 ^ 31 := by decide +kernel
  have blank := (replyHeader.blank_of_reads short reads (List.cons_ne_nil _ _)).1
  exact absurd (blank 82 (by decide)) (by decide)

end MyBookSources.RecvMail
