import MyBookSources.RecvMail.BoundaryTags
import MyBookSources.RecvMail.EncodedWords
import Mathlib.Data.List.Find

/-! # Headers with encoded words

`analyzeString` ends a word at a tab if there is one anywhere behind it, else at a line end or a
blank, and takes up to the last `?=` in front of it. What stands between the words is left out.
In a value below `2 ^ 31` bytes a `long` holds every position.
-/

namespace MyBookSources.RecvMail

open StringUtil (find find_eq_none_iff find_unbordered)

/-! ## Headers -/

/-- In the order in which `findOneOf` looks for them. -/
def SEPARATORS : Bytes := [0x09, 0x0A, 0x0D, 0x20]

def isSeparator (byte : Byte) : Bool := SEPARATORS.contains byte

/-- A text that ends, or begins, with a separator if it is not empty. -/
def EndsApart (text : Bytes) : Prop := ∀ last ∈ text.getLast?, isSeparator last = true

def BeginsApart (text : Bytes) : Prop := ∀ first ∈ text.head?, isSeparator first = true

instance (text : Bytes) : Decidable (EndsApart text) :=
  Option.decidableForallMem text.getLast?

instance (text : Bytes) : Decidable (BeginsApart text) :=
  Option.decidableForallMem text.head?

abbrev Entries := List (Word × Bytes)

def Entries.text (entries : Entries) : Bytes :=
  entries.flatMap fun (word, behind) => word.bytes ++ behind

/-- A text without `=?`, and words with such texts behind them. The words are separated from
what is in front of them and behind them. -/
structure Header where
  front : Bytes
  entries : Entries
  frontClean : ¬ ascii "=?" <:+: front
  clean : ∀ entry ∈ entries, ¬ ascii "=?" <:+: entry.2
  frontApart : entries ≠ [] → EndsApart front
  begins : ∀ entry ∈ entries, BeginsApart entry.2
  apart : ∀ entry ∈ entries.dropLast, entry.2 ≠ [] ∧ EndsApart entry.2

/-- The text without the separators of the words around it. -/
def literalText (text : Bytes) : Bytes := (text.dropWhile isSeparator).rdropWhile isSeparator

namespace Header

def text (header : Header) : Bytes := header.front ++ header.entries.text

/-- The literal texts and the decoded words, in their order. -/
def meaning (platform : Platform) (header : Header) : Wide :=
  if header.entries.isEmpty then platform.mbstowcs header.front
  else
    platform.mbstowcs (literalText header.front) ++
      header.entries.flatMap fun (word, behind) =>
        platform.multiByteToWideChar word.page word.data ++
          platform.mbstowcs (literalText behind)

end Header

/-- What is relied on of the conversions: of nothing they make nothing. -/
structure Converts (platform : Platform) : Prop where
  words : ∀ page, platform.multiByteToWideChar page [] = []
  literals : platform.mbstowcs [] = []

/-- The header is read as it is meant, whatever the conversions are. -/
def ReadsHeader (header : Header) : Prop :=
  ∀ platform, Converts platform →
    analyzeString platform header.text = some (header.meaning platform)

/-! ## Where it is read so -/

def Blank (text : Bytes) : Prop := ∀ byte ∈ text, isSeparator byte = true

/-- Each separator of the later text comes, in the order of the search, behind one of the
earlier text or is of its kind. -/
def Precedes (earlier later : Bytes) : Prop :=
  ∀ byte ∈ later, ∃ own ∈ earlier, SEPARATORS.idxOf own ≤ SEPARATORS.idxOf byte

/-- The word has no zero byte, and in the code `Q` no blank and at most 127 bytes. -/
structure Word.Simple (word : Word) : Prop where
  noZero : 0 ∉ word.data
  fits : word.Fits
  noBlank : isQ word.code = true → 95 ∉ word.text

structure WellRead (entries : Entries) : Prop where
  blank : ∀ entry ∈ entries, Blank entry.2
  ordered : entries.Pairwise fun earlier later => Precedes earlier.2 later.2
  simple : ∀ entry ∈ entries, entry.1.Simple

def Header.WellRead (header : Header) : Prop :=
  if header.entries = [] then 0 ∉ header.front
  else Blank header.front ∧ RecvMail.WellRead header.entries

/-! ## Positions of any size -/

def cutAt (text : Bytes) : Bytes :=
  match findOneOf text SEPARATORS with
  | some place => text.take place
  | none => text

def scanEnd (strPhase : Bytes) : Int :=
  match rfind 63 strPhase with
  | some last => if rfind 61 strPhase = some (last + 1) then last else strPhase.length - 1
  | none => strPhase.length - 1

def scanPhase (strData : Bytes) : Bytes × Int :=
  let strPhase := cutAt strData
  let lPhaseEnd := scanEnd strPhase
  (if lPhaseEnd < 0 then strPhase else strPhase.take lPhaseEnd.toNat, lPhaseEnd)

def behindFirst (text : Bytes) : Bytes :=
  match text.idxOf? 63 with
  | some pos => text.drop (pos + 1)
  | none => text

/-- The loop of `analyzeString` with positions of any size. -/
def scanWords (platform : Platform) (strData : Bytes) (lOffset : Nat) (strTemp : Bytes)
    (strResult : Wide) : Option Wide :=
  match _found : findFrom (ascii "=?") strData lOffset with
  | none => some strResult
  | some start =>
      let (strPhase, lPhaseEnd) := scanPhase (strData.drop (start + 2))
      let strCharset := match strPhase.idxOf? 63 with
        | some lCharsetEnd => strPhase.take lCharsetEnd
        | none => strPhase
      let strPhase := behindFirst strPhase
      let cCodeType := strPhase.getD 0 0
      let strPhase := behindFirst strPhase
      if strPhase.isEmpty then scanWords platform strData (start + 2) strTemp strResult
      else
        match decodeWord platform cCodeType strPhase strTemp with
        | none => none
        | some strTemp =>
            let strUnicode := match getCharset strCharset with
              | .UTF8 => EncodeUtil.UTF8ToUnicode platform strTemp
              | _ => EncodeUtil.GB2312ToUnicode platform strTemp
            scanWords platform strData (start + 2 + (lPhaseEnd + 1).toNat) strTemp
              (strResult ++ strUnicode)
  termination_by strData.length - lOffset
  decreasing_by
    all_goals
      have within := findFrom_le _found
      have two : (ascii "=?").length = 2 := by decide
      omega

theorem idxOf_lt {char : Byte} {text : Bytes} {place : Nat}
    (found : text.idxOf? char = some place) : place < text.length := by
  rw [List.idxOf?_eq_some_iff] at found
  exact found.1

theorem rfind_lt {char : Byte} {text : Bytes} {place : Nat} (found : rfind char text = some place) :
    place < text.length := by
  rcases Option.map_eq_some_iff.mp found with ⟨back, foundBack, rfl⟩
  have inside := idxOf_lt foundBack
  rw [List.length_reverse] at inside
  omega

theorem findOneOf_lt {text patterns : Bytes} {place : Nat}
    (found : findOneOf text patterns = some place) : place < text.length := by
  induction patterns with
  | nil => cases found
  | cons pattern patterns induction =>
      rw [findOneOf] at found
      split at found
      · next first =>
          cases found
          exact idxOf_lt first
      · exact induction found

theorem upTo_position {text : Bytes} {place : Option Nat} (short : text.length < 2 ^ 31)
    (inside : ∀ pos, place = some pos → pos < text.length) :
    upTo text (position place) = place.elim text text.take := by
  cases place with
  | none => rfl
  | some pos =>
      have small := inside pos rfl
      rw [position_some (by omega), upTo, if_neg (by omega), Int.toNat_natCast]
      rfl

theorem behindMark_eq {text : Bytes} (short : text.length < 2 ^ 31) :
    behindMark text = some (behindFirst text) := by
  rw [behindMark, behindFirst]
  cases found : text.idxOf? 63 with
  | none => exact substr_rest (Nat.zero_le text.length) (by decide)
  | some pos =>
      have small := idxOf_lt found
      have next : signed 32 ((pos : Int) + 1) = (pos + 1 : Nat) :=
        signed_of_lt (by omega) (by omega)
      rw [position_some (by omega), next, substr_rest (by omega) (by decide)]

theorem length_cutAt (text : Bytes) : (cutAt text).length ≤ text.length := by
  rw [cutAt]
  split
  · exact List.length_take_le' _ _
  · exact Nat.le_refl _

theorem scanEnd_range (strPhase : Bytes) :
    -1 ≤ scanEnd strPhase ∧ scanEnd strPhase < strPhase.length := by
  rw [scanEnd]
  split
  · next last mark =>
    have inside := rfind_lt mark
    split <;> omega
  · omega

theorem length_scanPhase (text : Bytes) : (scanPhase text).1.length ≤ text.length := by
  rw [scanPhase]
  dsimp only
  split
  · exact length_cutAt text
  · exact Nat.le_trans (List.length_take_le' _ _) (length_cutAt text)

theorem length_behindFirst (text : Bytes) : (behindFirst text).length ≤ text.length := by
  rw [behindFirst]
  split
  · rw [List.length_drop]
    omega
  · exact Nat.le_refl _

theorem phaseEnd_eq {strPhase : Bytes} (short : strPhase.length < 2 ^ 31) :
    phaseEnd strPhase = scanEnd strPhase := by
  have whole : signed 32 ((strPhase.length : Int) - 1) = strPhase.length - 1 :=
    signed_of_range (by omega) (by omega)
  rw [phaseEnd, scanEnd, whole]
  cases mark : rfind 63 strPhase with
  | none => exact if_pos (.inl position_none)
  | some last =>
      have small := rfind_lt mark
      have next : signed 32 ((last : Int) + 1) = (last + 1 : Nat) :=
        signed_of_lt (by omega) (by omega)
      have found : (last : Int) ≠ -1 := by omega
      rw [position_some (by omega)]
      dsimp only
      rw [next]
      cases equals : rfind 61 strPhase with
      | none =>
          have noEnd : (-1 : Int) ≠ (last + 1 : Nat) := by omega
          rw [if_pos (.inr noEnd), if_neg (Option.some_ne_none _).symm]
      | some place =>
          have same : (place : Int) = (last + 1 : Nat) ↔ place = last + 1 := Int.ofNat_inj
          simp only [found, false_or, Ne, same, Option.some.injEq, ite_not]

theorem phase_eq {text : Bytes} (short : text.length < 2 ^ 31) : phase text = scanPhase text := by
  have cut : upTo text (position (findOneOf text SEPARATORS)) = cutAt text := by
    rw [upTo_position short fun _ => findOneOf_lt, cutAt]
    cases findOneOf text SEPARATORS <;> rfl
  have inside := length_cutAt text
  rw [SEPARATORS] at cut
  rw [phase, cut, phaseEnd_eq (by omega)]
  rfl

/-! ## Searching -/

theorem idxOf_append_cons {char : Byte} {front : Bytes} (clean : char ∉ front) (rest : Bytes) :
    (front ++ char :: rest).idxOf? char = some front.length := by
  induction front with
  | nil => simp [List.idxOf?_cons]
  | cons first front induction =>
      rw [List.mem_cons, not_or] at clean
      rw [List.cons_append, List.idxOf?_cons, induction clean.2, beq_eq_false_iff_ne.mpr
        (Ne.symm clean.1)]
      rfl

theorem rfind_append_cons {char : Byte} {back : Bytes} (clean : char ∉ back) (front : Bytes) :
    rfind char (front ++ char :: back) = some front.length := by
  have found : (back.reverse ++ char :: front.reverse).idxOf? char = some back.reverse.length :=
    idxOf_append_cons (by rwa [List.mem_reverse]) _
  rw [rfind, List.reverse_append, List.reverse_cons, List.append_assoc, List.singleton_append,
    found, Option.map_some, List.length_reverse, List.length_append, List.length_cons]
  congr 1
  omega

theorem behindFirst_append {front : Bytes} (clean : 63 ∉ front) (rest : Bytes) :
    behindFirst (front ++ 63 :: rest) = rest := by
  rw [behindFirst, idxOf_append_cons clean]
  dsimp only
  rw [← List.drop_drop, List.drop_left]
  rfl

def firstKind (text : Bytes) : Option Byte := SEPARATORS.find? fun kind => decide (kind ∈ text)

theorem cutAt_eq (text : Bytes) :
    cutAt text = match firstKind text with
      | some kind => text.takeWhile (· ≠ kind)
      | none => text := by
  rw [cutAt, firstKind]
  induction SEPARATORS with
  | nil => rfl
  | cons kind kinds induction =>
      by_cases member : kind ∈ text
      · rcases List.eq_append_cons_of_mem member with ⟨front, back, rfl, clean⟩
        rw [findOneOf, idxOf_append_cons clean, List.find?_cons, decide_eq_true member]
        dsimp only
        rw [List.take_left, List.takeWhile_append_of_pos (decide_ne_of_not_mem clean)]
        simp
      · rw [findOneOf, List.idxOf?_eq_none_iff.mpr member,
          List.find?_cons_of_neg (by simpa using member)]
        exact induction

theorem firstKind_spec {text : Bytes} {kind : Byte} (found : firstKind text = some kind) :
    kind ∈ text ∧ ∀ byte ∈ text, isSeparator byte = true →
      SEPARATORS.idxOf kind ≤ SEPARATORS.idxOf byte := by
  rw [firstKind, List.find?_eq_some_iff_append] at found
  rcases found with ⟨member, front, back, kinds, absent⟩
  refine ⟨of_decide_eq_true member, fun byte inText separator => ?_⟩
  have fresh : ∀ other ∈ text, other ∉ front := by
    intro other inOther inFront
    have none := absent other inFront
    rw [Bool.not_eq_true', decide_eq_false_iff_not] at none
    exact none inOther
  rw [kinds, List.idxOf_append, if_neg (fresh kind (of_decide_eq_true member)),
    List.idxOf_append, if_neg (fresh byte inText), List.idxOf_cons_self]
  omega

theorem firstKind_eq_none {text : Bytes} (found : firstKind text = none) :
    ∀ byte ∈ text, isSeparator byte = false := by
  intro byte member
  rw [firstKind, List.find?_eq_none] at found
  by_contra separator
  rw [Bool.not_eq_false, isSeparator, List.contains_iff_mem] at separator
  exact found byte separator (decide_eq_true member)

theorem firstKind_eq_some {text : Bytes} {kind : Byte} (member : kind ∈ text)
    (separator : isSeparator kind = true) (first : ∀ byte ∈ text, isSeparator byte = true →
      SEPARATORS.idxOf kind ≤ SEPARATORS.idxOf byte) : firstKind text = some kind := by
  cases found : firstKind text with
  | none =>
      rw [firstKind_eq_none found kind member] at separator
      cases separator
  | some other =>
      rcases firstKind_spec found with ⟨inText, before⟩
      have known := List.mem_of_find?_eq_some found
      have apart : isSeparator other = true := by rwa [isSeparator, List.contains_iff_mem]
      have order := Nat.le_antisymm (before kind member separator) (first other inText apart)
      rw [(List.idxOf_inj known).mp order]

theorem firstKind_append {front : Bytes} (solid : ∀ byte ∈ front, isSeparator byte = false)
    (back : Bytes) : firstKind (front ++ back) = firstKind back := by
  refine List.find?_congr fun kind member => ?_
  have absent : kind ∉ front := by
    intro inFront
    have separator : isSeparator kind = true := by rwa [isSeparator, List.contains_iff_mem]
    rw [solid kind inFront] at separator
    cases separator
  simp [absent]

theorem cutAt_append {front : Bytes} (solid : ∀ byte ∈ front, isSeparator byte = false)
    (back : Bytes) : cutAt (front ++ back) = front ++ cutAt back := by
  rw [cutAt_eq, cutAt_eq, firstKind_append solid]
  cases found : firstKind back with
  | none => rfl
  | some kind =>
      have member := List.mem_of_find?_eq_some found
      dsimp only
      refine List.takeWhile_append_of_pos (decide_ne_of_not_mem fun inFront => ?_)
      have separator : isSeparator kind = true := by rwa [isSeparator, List.contains_iff_mem]
      rw [solid kind inFront] at separator
      cases separator

theorem scanPhase_eq {text front behind : Bytes} (cut : cutAt text = front ++ 63 :: 61 :: behind)
    (blank : Blank behind) : scanPhase text = (front, (front.length : Int)) := by
  have clean : 63 ∉ behind ∧ 61 ∉ behind := by
    constructor
    · exact fun member => absurd (blank 63 member) (by decide)
    · exact fun member => absurd (blank 61 member) (by decide)
  have mark : rfind 63 (front ++ 63 :: 61 :: behind) = some front.length :=
    rfind_append_cons (by rw [List.mem_cons, not_or]; exact ⟨by decide, clean.1⟩) front
  have sign : rfind 61 (front ++ 63 :: 61 :: behind) = some (front.length + 1) := by
    have found := rfind_append_cons clean.2 (front ++ [63])
    rwa [List.append_assoc, List.singleton_append, List.length_append] at found
  have ends : scanEnd (front ++ 63 :: 61 :: behind) = front.length := by
    rw [scanEnd, mark]
    exact if_pos sign
  rw [scanPhase, cut, ends, if_neg (by omega), Int.toNat_natCast, List.take_left]

/-! ## One step of the loop -/

section

variable (platform : Platform)

def converted (charset strTemp : Bytes) : Wide :=
  match getCharset charset with
  | .UTF8 => EncodeUtil.UTF8ToUnicode platform strTemp
  | _ => EncodeUtil.GB2312ToUnicode platform strTemp

/-- A turn of the loop on what stands behind the mark it has found; `next` is the rest of the
loop, so many bytes further on. -/
def wordStep (behind strTemp : Bytes) (strResult : Wide)
    (next : (skip : Nat) → (strTemp : Bytes) → (strResult : Wide) → Option Wide) :
    Option Wide :=
  let strPhase := behindFirst (scanPhase behind).1
  let strCharset := match (scanPhase behind).1.idxOf? 63 with
    | some lCharsetEnd => (scanPhase behind).1.take lCharsetEnd
    | none => (scanPhase behind).1
  if (behindFirst strPhase).isEmpty then next 0 strTemp strResult
  else
    match decodeWord platform (strPhase.getD 0 0) (behindFirst strPhase) strTemp with
    | none => none
    | some strTemp =>
        next ((scanPhase behind).2 + 1).toNat strTemp
          (strResult ++ converted platform strCharset strTemp)

theorem scanWords_absent {text : Bytes} {lOffset : Nat} (strTemp : Bytes)
    (strResult : Wide) (absent : findFrom (ascii "=?") text lOffset = none) :
    scanWords platform text lOffset strTemp strResult = some strResult := by
  rw [scanWords]
  split
  · rfl
  · next found => simp [absent] at found

theorem scanWords_found {text : Bytes} {lOffset start : Nat} (strTemp : Bytes)
    (strResult : Wide) (found : findFrom (ascii "=?") text lOffset = some start) :
    scanWords platform text lOffset strTemp strResult =
      wordStep platform (text.drop (start + 2)) strTemp strResult fun skip =>
        scanWords platform text (start + 2 + skip) := by
  rw [scanWords]
  split
  · next absent => simp [found] at absent
  · next other same =>
    rw [found] at same
    cases same
    rfl

/-- Where a `long` holds every position, the loop is the one with positions of any size. -/
theorem analyzeStringLoop_eq {strData : Bytes} (short : strData.length < 2 ^ 31)
    {turns lOffset : Nat} (enough : strData.length - lOffset < turns) (strTemp : Bytes)
    (strResult : Wide) :
    analyzeStringLoop platform strData turns lOffset strTemp strResult =
      scanWords platform strData lOffset strTemp strResult := by
  induction turns generalizing lOffset strTemp strResult with
  | zero => exact absurd enough (Nat.not_lt_zero _)
  | succ turns induction =>
      rw [analyzeStringLoop, findAt_natCast]
      cases found : findFrom (ascii "=?") strData lOffset with
      | none =>
          rw [scanWords_absent platform _ _ found, position_none]
          exact if_pos (by decide)
      | some start =>
          have within := findFrom_le found
          have two : (ascii "=?").length = 2 := by decide
          have later : ∀ skip, strData.length - (start + 2 + skip) < turns := by omega
          have next : signed 32 ((start : Int) + 2) = (start + 2 : Nat) :=
            signed_of_lt (by omega) (by omega)
          have taken : substr strData (start + 2 : Nat) (-1) = some (strData.drop (start + 2)) :=
            substr_rest (by omega) (by decide)
          rw [scanWords_found platform _ _ found, wordStep, position_some (by omega)]
          dsimp only
          rw [if_neg (by omega), next, taken]
          generalize text_eq : strData.drop (start + 2) = behind
          have length := congrArg List.length text_eq
          rw [List.length_drop] at length
          have inside := length_scanPhase behind
          have range : -1 ≤ (scanPhase behind).2 ∧ (scanPhase behind).2 < behind.length :=
            ⟨(scanEnd_range (cutAt behind)).1,
              Int.lt_of_lt_of_le (scanEnd_range (cutAt behind)).2
                (Int.ofNat_le.mpr (length_cutAt behind))⟩
          rw [Option.bind_eq_bind, Option.bind_some, phase_eq (by omega)]
          generalize scanPhase behind = phased at inside range ⊢
          rcases phased with ⟨strPhase, lPhaseEnd⟩
          dsimp only at inside range ⊢
          have first := length_behindFirst strPhase
          rw [upTo_position (by omega) fun _ => idxOf_lt, behindMark_eq (by omega),
            Option.bind_some, behindMark_eq (by omega), Option.bind_some]
          have low : 0 ≤ lPhaseEnd + 1 := by omega
          have high : start + 2 + (lPhaseEnd + 1) < 2 ^ 31 := by omega
          have skips : signed 32 (lPhaseEnd + 1) = (lPhaseEnd + 1).toNat := by
            rw [signed_of_lt low (by omega), Int.toNat_of_nonneg low]
          have sum : signed 32 ((start + 2 : Nat) + ((lPhaseEnd + 1).toNat : Int)) =
              (start + 2 + (lPhaseEnd + 1).toNat : Nat) :=
            signed_of_lt (by omega) (by omega)
          split
          · exact induction (later 0) strTemp strResult
          · rw [skips, sum]
            cases decodeWord platform ((behindFirst strPhase).getD 0 0)
                (behindFirst (behindFirst strPhase)) strTemp with
            | none => rfl
            | some strTemp =>
                rw [Option.bind_some, induction (later _)]
                cases strPhase.idxOf? 63 <;> rfl

theorem scanWords_drop {text : Bytes} {skip : Nat} (inText : skip ≤ text.length)
    (start : Nat) (strTemp : Bytes) (strResult : Wide) :
    scanWords platform text (skip + start) strTemp strResult =
      scanWords platform (text.drop skip) start strTemp strResult := by
  induction size : text.length - start using Nat.strong_induction_on
    generalizing start strTemp strResult with
  | _ count induction =>
      have shifted := findFrom_drop (ascii "=?") inText start
      cases found : findFrom (ascii "=?") (text.drop skip) start with
      | none =>
          rw [found] at shifted
          rw [scanWords_absent platform _ _ shifted,
            scanWords_absent platform _ _ found]
      | some place =>
          rw [found, Option.map_some] at shifted
          have inside := findFrom_le found
          have two : (ascii "=?").length = 2 := by decide
          rw [List.length_drop] at inside
          rw [scanWords_found platform _ _ shifted,
            scanWords_found platform _ _ found, List.drop_drop]
          have same : (fun more => scanWords platform text (place + skip + 2 + more)) =
              fun more => scanWords platform (text.drop skip) (place + 2 + more) := by
            funext more strTemp strResult
            have order : place + skip + 2 + more = skip + (place + 2 + more) := by omega
            rw [order]
            exact induction _ (by omega) _ _ _ rfl
          have behind : place + skip + 2 = skip + (place + 2) := by omega
          rw [same, behind]

end

end MyBookSources.RecvMail
