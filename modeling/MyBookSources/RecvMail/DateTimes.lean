import MyBookSources.RecvMail.Pop3Socket
import MyBookSources.RecvMail.Splitting

/-! # Dates and times of mails

`parseTimeString` reads the four words of a date. What it makes of a month that it does not know
is what has been in the structure before.
-/

namespace MyBookSources.RecvMail

open StringUtil (find_unbordered)

/-! ## Words -/

theorem singleton_infix_iff {byte : Byte} {text : Bytes} : [byte] <:+: text ↔ byte ∈ text := by
  constructor
  · intro within
    exact within.subset (List.mem_singleton_self byte)
  · intro member
    rcases List.append_of_mem member with ⟨front, back, rfl⟩
    exact ⟨front, back, by rw [List.append_assoc]; rfl⟩

theorem splitAll_byte (byte : Byte) (text : Bytes) :
    splitAll [byte] text = text.splitOn byte := by
  induction size : text.length using Nat.strong_induction_on generalizing text with
  | _ length induction =>
      by_cases member : byte ∈ text
      · rcases List.eq_append_cons_of_mem member with ⟨front, back, rfl, clean⟩
        have found : StringUtil.find [byte] (front ++ byte :: back) = some front.length :=
          find_unbordered List.not_mem_nil
            (fun within => clean (singleton_infix_iff.mp within)) back
        have behind : (front ++ byte :: back).drop (front.length + [byte].length) = back := by
          rw [← List.drop_drop, List.drop_left]
          rfl
        have shorter : back.length < length := by
          rw [List.length_append, List.length_cons] at size
          omega
        rw [splitAll_of_find (List.cons_ne_nil _ _) found, List.take_left, behind,
          List.splitOn_append_cons_self_of_not_mem clean, induction _ shorter back rfl]
      · rw [splitAll_of_clean fun within => member (singleton_infix_iff.mp within),
          List.splitOn_eq_singleton member]

theorem splitString_append (byte : Byte) (front back : Bytes) :
    splitString (front ++ byte :: back) [byte] =
      splitString front [byte] ++ splitString back [byte] := by
  rw [splitString, splitAll_byte, List.splitOn_append_cons_self, List.filter_append, splitString,
    splitString, splitAll_byte, splitAll_byte]

theorem splitString_word {byte : Byte} {word : Bytes} (filled : word ≠ [])
    (clean : byte ∉ word) : splitString word [byte] = [word] := by
  rw [splitString, splitAll_byte, List.splitOn_eq_singleton clean]
  simp [filled]

theorem splitString_nil (byte : Byte) : splitString [] [byte] = [] := by
  rw [splitString, splitAll_byte, List.splitOn_nil]
  rfl

theorem splitString_delimiters {byte : Byte} {blanks : Bytes} (all : ∀ blank ∈ blanks, blank = byte)
    (back : Bytes) : splitString (blanks ++ back) [byte] = splitString back [byte] := by
  induction blanks with
  | nil => rfl
  | cons blank blanks induction =>
      have later := induction fun other member => all other (by simp [member])
      rw [all blank (by simp), List.cons_append, ← List.nil_append (byte :: _),
        splitString_append, splitString_nil, List.nil_append, later]

theorem splitString_cons {byte : Byte} {word blanks : Bytes} (filled : word ≠ [])
    (clean : byte ∉ word) (some_blank : blanks ≠ []) (all : ∀ blank ∈ blanks, blank = byte)
    (back : Bytes) :
    splitString (word ++ (blanks ++ back)) [byte] = word :: splitString back [byte] := by
  rcases List.exists_cons_of_ne_nil some_blank with ⟨blank, others, rfl⟩
  rw [all blank (by simp), List.cons_append, splitString_append, splitString_word filled clean,
    splitString_delimiters fun other member => all other (by simp [member])]
  rfl

/-! ## Numbers -/

structure Spelled (text : Bytes) (number : Nat) : Prop where
  filled : text ≠ []
  digits : ∀ byte ∈ text, Decimal.isDigit byte = true
  value : Decimal.value text = number

instance (text : Bytes) (number : Nat) : Decidable (Spelled text number) :=
  decidable_of_iff
    (text ≠ [] ∧ text.all Decimal.isDigit = true ∧ Decimal.value text = number)
    ⟨fun ⟨filled, digits, value⟩ => ⟨filled, List.all_eq_true.mp digits, value⟩,
      fun ⟨filled, digits, value⟩ => ⟨filled, List.all_eq_true.mpr digits, value⟩⟩

namespace Spelled

variable {text : Bytes} {number : Nat}

theorem not_mem (spelled : Spelled text number) {byte : Byte}
    (other : Decimal.isDigit byte = false) : byte ∉ text := by
  intro member
  rw [spelled.digits byte member] at other
  cases other

theorem atoi_eq (spelled : Spelled text number) : atoi text = min (2 ^ 31 - 1) (number : Int) := by
  have whole : cString text = text :=
    (cString_eq_iff text).mpr (spelled.not_mem (by decide))
  rcases List.exists_cons_of_ne_nil spelled.filled with ⟨first, others, rfl⟩
  have leading := Decimal.isDigit_not_sign (spelled.digits first (by simp))
  have unspaced : (first :: others).dropWhile Decimal.isSpace = first :: others := by
    rw [List.dropWhile_cons, leading.1]
    rfl
  have digits : (first :: others).takeWhile Decimal.isDigit = first :: others :=
    List.takeWhile_eq_self_iff.mpr spelled.digits
  have unsigned : ¬ ((first :: others).head? = some 45 ∨ (first :: others).head? = some 43) := by
    rw [List.head?_cons, Option.some.injEq, Option.some.injEq, not_or]
    exact leading.2
  have positive : ¬ (first :: others).head? = some 45 := fun sign => unsigned (.inl sign)
  rw [atoi, whole, unspaced, if_neg unsigned, if_neg positive, digits, spelled.value]
  omega

theorem atoi_eq_iff (spelled : Spelled text number) :
    atoi text = (number : Int) ↔ number < 2 ^ 31 := by
  rw [spelled.atoi_eq]
  omega

end Spelled

/-! ## Dates as they are written -/

def isLeapYear (year : Nat) : Bool :=
  year % 4 == 0 && (year % 100 != 0 || year % 400 == 0)

def daysOfMonth (year month : Nat) : Nat :=
  if month = 2 then if isLeapYear year then 29 else 28
  else if month ∈ [4, 6, 9, 11] then 30
  else 31

/-- A calendar date and a time of the day, which may be a leap second. -/
structure DateTime where
  year : Nat
  month : Nat
  day : Nat
  hour : Nat
  minute : Nat
  second : Nat
  inYear : 1 ≤ month ∧ month ≤ 12
  inMonth : 1 ≤ day ∧ day ≤ daysOfMonth year month
  inDay : hour < 24 ∧ minute < 60 ∧ second ≤ 60

def DateTime.timeItem (time : DateTime) : TimeItem :=
  ⟨time.year, time.month, time.day, time.hour, time.minute, time.second⟩

def monthName (month : Nat) : Bytes :=
  [ascii "Jan", ascii "Feb", ascii "Mar", ascii "Apr", ascii "May", ascii "Jun", ascii "Jul",
    ascii "Aug", ascii "Sep", ascii "Oct", ascii "Nov", ascii "Dec"].getD (month - 1) []

def Blanks (text : Bytes) : Prop := ∀ byte ∈ text, byte = 32

instance (text : Bytes) : Decidable (Blanks text) := List.decidableBAll _ text

/-- A date as RFC 5322 prescribes. The blanks at both ends may be missing. -/
structure Written (time : DateTime) where
  front : Bytes
  day : Bytes
  afterDay : Bytes
  afterMonth : Bytes
  year : Bytes
  afterYear : Bytes
  hour : Bytes
  minute : Bytes
  second : Bytes
  behind : Bytes
  dayDigits : Spelled day time.day ∧ day.length ≤ 2
  yearDigits : Spelled year time.year ∧ 4 ≤ year.length
  hourDigits : Spelled hour time.hour ∧ hour.length = 2
  minuteDigits : Spelled minute time.minute ∧ minute.length = 2
  secondDigits : Spelled second time.second ∧ second.length = 2
  outer : Blanks front ∧ Blanks behind
  between : (Blanks afterDay ∧ afterDay ≠ []) ∧ (Blanks afterMonth ∧ afterMonth ≠ []) ∧
    Blanks afterYear ∧ afterYear ≠ []

namespace Written

variable {time : DateTime}

def clock (written : Written time) : Bytes :=
  written.hour ++ 58 :: (written.minute ++ 58 :: written.second)

def text (written : Written time) : Bytes :=
  written.front ++ (written.day ++ (written.afterDay ++ (monthName time.month ++
    (written.afterMonth ++ (written.year ++ (written.afterYear ++
      (written.clock ++ written.behind)))))))

end Written

/-- The text is read as its date, whatever has been in the structure. -/
def ReadsBack (time : DateTime) (text : Bytes) : Prop :=
  ∀ timeItem, parseTimeString text timeItem = some time.timeItem

def AllAssigned (dateString : Bytes) : Prop :=
  ∀ timeItem other, parseTimeString dateString timeItem = parseTimeString dateString other

/-! ## Reading them -/

theorem Written.words_clock {time : DateTime} (written : Written time) :
    splitString written.clock (ascii ":") = [written.hour, written.minute, written.second] := by
  have colon : ascii ":" = [58] := by decide
  have word : ∀ {text number}, Spelled text number → splitString text [58] = [text] :=
    fun spelled => splitString_word spelled.filled (spelled.not_mem (by decide))
  rw [Written.clock, colon, splitString_append, splitString_append, word written.hourDigits.1,
    word written.minuteDigits.1, word written.secondDigits.1]
  rfl

theorem Written.words {time : DateTime} (written : Written time) :
    splitString written.text (ascii " ") =
      [written.day, monthName time.month, written.year, written.clock] := by
  have blank : ascii " " = [32] := by decide
  have noBlank : ∀ {text number}, Spelled text number → 32 ∉ text :=
    fun spelled => spelled.not_mem (by decide)
  have month : monthName time.month ≠ [] ∧ 32 ∉ monthName time.month := by
    have all : ∀ index : Fin 12, monthName (index + 1) ≠ [] ∧ 32 ∉ monthName (index + 1) := by
      decide
    have inYear := time.inYear
    have own := all ⟨time.month - 1, by omega⟩
    rwa [Nat.sub_add_cancel inYear.1] at own
  have clock : written.clock ≠ [] ∧ 32 ∉ written.clock := by
    constructor
    · simp [Written.clock]
    · simp only [Written.clock, List.mem_append, List.mem_cons, not_or]
      exact ⟨noBlank written.hourDigits.1, by decide, noBlank written.minuteDigits.1, by decide,
        noBlank written.secondDigits.1⟩
  have last : splitString (written.clock ++ written.behind) [32] = [written.clock] := by
    cases behind : written.behind with
    | nil => rw [List.append_nil, splitString_word clock.1 clock.2]
    | cons first others =>
        have all : Blanks written.behind := written.outer.2
        rw [behind] at all
        have rest := splitString_cons clock.1 clock.2 (List.cons_ne_nil first others) all []
        rw [List.append_nil, splitString_nil] at rest
        exact rest
  rcases written.between with ⟨afterDay, afterMonth, afterYear⟩
  rw [Written.text, blank, splitString_delimiters written.outer.1,
    splitString_cons written.dayDigits.1.filled (noBlank written.dayDigits.1) afterDay.2 afterDay.1,
    splitString_cons month.1 month.2 afterMonth.2 afterMonth.1,
    splitString_cons written.yearDigits.1.filled (noBlank written.yearDigits.1) afterYear.2
      afterYear.1, last]

theorem idxOf_monthName {month : Nat} (inYear : 1 ≤ month ∧ month ≤ 12) :
    MONTHS.idxOf? (monthName month) = if month = 9 then none else some (month - 1) := by
  have all : ∀ index : Fin 12, MONTHS.idxOf? (monthName (index + 1)) =
      if (index + 1 : Nat) = 9 then none else some (index : Nat) := by
    decide
  have own := all ⟨month - 1, by omega⟩
  rwa [Nat.sub_add_cancel inYear.1] at own

/-- What is read of a date that is written so. -/
theorem Written.parseTimeString_text {time : DateTime} (written : Written time)
    (timeItem : TimeItem) :
    parseTimeString written.text timeItem =
      some { time.timeItem with
        year := min (2 ^ 31 - 1) (time.year : Int)
        month := if time.month = 9 then timeItem.month else time.month } := by
  have inYear := time.inYear
  have inMonth := time.inMonth
  have inDay := time.inDay
  have short : daysOfMonth time.year time.month ≤ 31 := by
    unfold daysOfMonth
    repeat' split
    all_goals decide
  have small : ∀ {text number}, Spelled text number → number < 2 ^ 31 →
      atoi text = (number : Int) := fun spelled small => spelled.atoi_eq_iff.mpr small
  rw [parseTimeString, written.words]
  dsimp only
  rw [written.words_clock, idxOf_monthName inYear]
  dsimp only
  rw [small written.dayDigits.1 (by omega), small written.hourDigits.1 (by omega),
    small written.minuteDigits.1 (by omega), small written.secondDigits.1 (by omega),
    written.yearDigits.1.atoi_eq]
  by_cases september : time.month = 9
  · rw [if_pos september, if_pos september]
    rfl
  · have month : ((time.month - 1 : Nat) : Int) + 1 = time.month := by omega
    rw [if_neg september, if_neg september]
    dsimp only
    rw [month]
    rfl

theorem Written.readsBack_iff {time : DateTime} (written : Written time) :
    ReadsBack time written.text ↔ time.month ≠ 9 ∧ time.year < 2 ^ 31 := by
  constructor
  · intro reads
    have own := reads ⟨0, 0, 0, 0, 0, 0⟩
    rw [written.parseTimeString_text, Option.some.injEq, TimeItem.mk.injEq] at own
    rcases own with ⟨year, month, _⟩
    constructor
    · rintro september
      rw [if_pos september] at month
      change (0 : Int) = (time.month : Int) at month
      omega
    · change min (2 ^ 31 - 1) (time.year : Int) = (time.year : Int) at year
      omega
  · rintro ⟨other, small⟩ timeItem
    have year : min (2 ^ 31 - 1) (time.year : Int) = time.year := by omega
    rw [written.parseTimeString_text, if_neg other, year]
    rfl

/-- The month of an accepted text comes from the text exactly if it is one of the names. -/
theorem allAssigned_iff {dateString : Bytes} {timeItem after : TimeItem}
    (accepted : parseTimeString dateString timeItem = some after) :
    AllAssigned dateString ↔
      ∃ month ∈ MONTHS, (splitString dateString (ascii " "))[1]? = some month := by
  unfold AllAssigned parseTimeString at *
  split at accepted
  · next day month year clock words =>
    split at accepted
    · next hour minute second pieces =>
      simp only [words, List.getElem?_cons_succ, List.getElem?_cons_zero,
        Option.some.injEq, TimeItem.mk.injEq, true_and, and_true, exists_eq_right']
      cases found : MONTHS.idxOf? month with
      | some index =>
          have known : month ∈ MONTHS := by
            by_contra foreign
            rw [List.idxOf?_eq_none_iff.mpr foreign] at found
            cases found
          simp [known]
      | none =>
          have foreign := List.idxOf?_eq_none_iff.mp found
          simp only [foreign, iff_false, not_forall]
          exact ⟨⟨0, 0, 0, 0, 0, 0⟩, ⟨0, 1, 0, 0, 0, 0⟩, by decide⟩
    · cases accepted
  · cases accepted

/-- A written date is read back exactly if it is not in September and its year is an `int`. An
accepted text leaves no field as it was exactly if its month is one of the names. -/
theorem parseTimeString_iff (time : DateTime) (written : Written time) (dateString : Bytes)
    (timeItem after : TimeItem) :
    (ReadsBack time written.text ↔ time.month ≠ 9 ∧ time.year < 2 ^ 31) ∧
      (parseTimeString dateString timeItem = some after →
        (AllAssigned dateString ↔
          ∃ month ∈ MONTHS, (splitString dateString (ascii " "))[1]? = some month)) :=
  ⟨written.readsBack_iff, allAssigned_iff⟩

/-- The third of September 2020. -/
def sampleTime : DateTime :=
  ⟨2020, 9, 3, 17, 56, 49, by decide, by decide, by decide⟩

def sampleDate : Written sampleTime where
  front := []
  day := ascii "3"
  afterDay := ascii " "
  afterMonth := ascii " "
  year := ascii "2020"
  afterYear := ascii " "
  hour := ascii "17"
  minute := ascii "56"
  second := ascii "49"
  behind := []
  dayDigits := by decide
  yearDigits := by decide
  hourDigits := by decide
  minuteDigits := by decide
  secondDigits := by decide
  outer := by decide
  between := by decide

theorem parseTimeString_september :
    (ReadsBack sampleTime sampleDate.text ↔ sampleTime.month ≠ 9 ∧ sampleTime.year < 2 ^ 31) ∧
      (AllAssigned sampleDate.text ↔
        ∃ month ∈ MONTHS, (splitString sampleDate.text (ascii " "))[1]? = some month) := by
  have read := sampleDate.parseTimeString_text ⟨0, 0, 0, 0, 0, 0⟩
  have both := parseTimeString_iff sampleTime sampleDate sampleDate.text ⟨0, 0, 0, 0, 0, 0⟩
  exact ⟨(both ⟨0, 0, 0, 0, 0, 0⟩).1, (both _).2 read⟩

/-- It is accepted, but not read back, and its month is left as it was. -/
theorem september_left_unset :
    sampleDate.text = ascii "3 Sep 2020 17:56:49" ∧
      (∀ timeItem, (parseTimeString sampleDate.text timeItem).isSome) ∧
      ¬ ReadsBack sampleTime sampleDate.text ∧ ¬ AllAssigned sampleDate.text := by
  have read := sampleDate.parseTimeString_text
  refine ⟨by decide, fun timeItem => ?_, ?_, ?_⟩
  · rw [read]
    rfl
  · rw [sampleDate.readsBack_iff]
    exact fun both => both.1 rfl
  · intro assigned
    have same := assigned ⟨0, 0, 0, 0, 0, 0⟩ ⟨0, 1, 0, 0, 0, 0⟩
    rw [read, read, Option.some.injEq, TimeItem.mk.injEq] at same
    rcases same with ⟨_, month, _⟩
    revert month
    decide

/-- A name that the code knows, though it is not that of RFC 5322. -/
example : (parseTimeString (ascii "3 Sept 2020 17:56:49") ⟨0, 0, 0, 0, 0, 0⟩).map
    TimeItem.month = some 9 := by
  have words : splitString (ascii "3 Sept 2020 17:56:49") (ascii " ") =
      [ascii "3", ascii "Sept", ascii "2020", ascii "17:56:49"] := by
    rw [splitString, show ascii " " = [32] by decide, splitAll_byte]
    decide
  have pieces : splitString (ascii "17:56:49") (ascii ":") =
      [ascii "17", ascii "56", ascii "49"] := by
    rw [splitString, show ascii ":" = [58] by decide, splitAll_byte]
    decide
  rw [parseTimeString, words]
  dsimp only
  rw [pieces]
  decide

end MyBookSources.RecvMail
