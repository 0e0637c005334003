import MyBookSources.RecvMail.Base64LineBreaks

/-! # What the base64 decoders read

Both versions of `decode` take a group as it comes: they look for the end of the source
between two groups only, and every byte of a group, a signed `char`, is an index of
`DECODE_TABLE`. The count `i` and the length that is passed are `int`s.
-/

namespace MyBookSources.RecvMail.Base64Util

/-! ## The loops -/

/-- In what the two versions of `decode` differ: the padding, the room of the destination, and
whether line ends are stepped over. -/
structure Version where
  chMask : Byte
  maxDest : Option Int
  skipsLineEnds : Bool

/-- `decode(char*, const char*, int, char, int)`. -/
def decodeChars (chMask : Byte) (maxDest : Int) : Version := ⟨chMask, some maxDest, false⟩

/-- `decode(const char*, int, std::string&)`. -/
def decodeString : Version := ⟨61, none, true⟩

inductive Access
  | source (position : Nat)
  | table (index : Int)
  deriving DecidableEq

def Access.Inside (length : Nat) : Access → Prop
  | .source position => position < length
  | .table index => 0 ≤ index ∧ index < DECODE_TABLE.length

instance (length : Nat) : (access : Access) → Decidable (access.Inside length)
  | .source position => inferInstanceAs (Decidable (position < length))
  | .table index => inferInstanceAs (Decidable (0 ≤ index ∧ index < DECODE_TABLE.length))

structure Cursor where
  position : Nat
  i : Int
  lenDest : Int

/-- The byte at a position of the source, or of the memory behind it. -/
def charAt (source : Bytes) (behind : Nat → Byte) (position : Nat) : Byte :=
  if position < source.length then source.getD position 0 else behind (position - source.length)

def tableAccess (char : Byte) : Access := .table char.toBitVec.toInt

def InTable (chars : Bytes) : Prop := ∀ char ∈ chars, char.toNat < 123

namespace Version

variable (version : Version)

def skips (char : Byte) : Bool := version.skipsLineEnds && EncodeUtil.lineEnd char

/-- Whether the loop is left when this many bytes are counted. -/
def full (lenDest : Int) : Bool :=
  match version.maxDest with
  | some maxDest => maxDest ≤ lenDest
  | none => false

/-- One pass through the loop: what it reads, and where the next pass begins if the loop is
not left. -/
def pass (char : Nat → Byte) (cursor : Cursor) : List Access × Option Cursor :=
  let ⟨position, i, lenDest⟩ := cursor
  let first := char position
  if version.skips first then
    ([.source position], some ⟨position + 1, signed 32 (i + 1), lenDest⟩)
  else
    let second := char (position + 1)
    let two := [.source position, tableAccess first, .source (position + 1), tableAccess second]
    if version.full (lenDest + 1) then (two, none)
    else
      let third := char (position + 2)
      if third = version.chMask then
        (two ++ [.source (position + 2)],
          some ⟨position + 2, signed 32 (i + 4), lenDest + 1⟩)
      else
        let three := two ++ [.source (position + 2), tableAccess third]
        if version.full (lenDest + 2) then (three, none)
        else
          let fourth := char (position + 3)
          if fourth = version.chMask then
            (three ++ [.source (position + 3)],
              some ⟨position + 3, signed 32 (i + 4), lenDest + 2⟩)
          else
            let four := three ++ [.source (position + 3), tableAccess fourth]
            if version.full (lenDest + 3) then (four, none)
            else (four, some ⟨position + 4, signed 32 (i + 4), lenDest + 3⟩)

inductive Reaches (char : Nat → Byte) (length : Int) : Cursor → Cursor → Prop
  | here (cursor : Cursor) : Reaches char length cursor cursor
  | next {cursor later last : Cursor} : cursor.i < length →
      (version.pass char cursor).2 = some later → Reaches char length later last →
      Reaches char length cursor last

/-- Every pass from a cursor on reads the source and the table only. -/
def SafeFrom (source : Bytes) (behind : Nat → Byte) (start : Cursor) : Prop :=
  ∀ cursor, version.Reaches (charAt source behind) (int32 source.length) start cursor →
    cursor.i < int32 source.length →
    ∀ access ∈ (version.pass (charAt source behind) cursor).1, access.Inside source.length

/-- Whatever stands behind the source, a call reads the source and the table only. -/
def Safe (source : Bytes) : Prop :=
  ∀ behind, version.SafeFrom source behind ⟨0, 0, 0⟩

/-! ## Texts that can be read in groups -/

/-- The rest of a text, with `i` bytes counted and `lenDest` bytes decoded, is made of single
line ends and of groups. A group has two bytes in front of a pad, three in front of a pad,
or four, all of them in the table; the pad is left to the next group, but four bytes are
counted. It may break off where the destination is full. The text may end where the count
has reached its length. -/
inductive Grouped (length : Int) : Int → Int → Bytes → Prop
  | ended {i lenDest : Int} {rest : Bytes} : length ≤ i → Grouped length i lenDest rest
  | lineEnd {i lenDest : Int} {c : Byte} {rest : Bytes} : i < length → version.skips c = true →
      Grouped length (signed 32 (i + 1)) lenDest rest → Grouped length i lenDest (c :: rest)
  | fullOne {i lenDest : Int} {c1 c2 : Byte} {rest : Bytes} : i < length →
      version.skips c1 = false → InTable [c1, c2] →
      version.full (lenDest + 1) = true → Grouped length i lenDest (c1 :: c2 :: rest)
  | two {i lenDest : Int} {c1 c2 : Byte} {rest : Bytes} : i < length →
      version.skips c1 = false → InTable [c1, c2] → version.full (lenDest + 1) = false →
      Grouped length (signed 32 (i + 4)) (lenDest + 1) (version.chMask :: rest) →
      Grouped length i lenDest (c1 :: c2 :: version.chMask :: rest)
  | fullTwo {i lenDest : Int} {c1 c2 c3 : Byte} {rest : Bytes} : i < length →
      version.skips c1 = false → InTable [c1, c2, c3] → version.full (lenDest + 1) = false →
      c3 ≠ version.chMask → version.full (lenDest + 2) = true →
      Grouped length i lenDest (c1 :: c2 :: c3 :: rest)
  | three {i lenDest : Int} {c1 c2 c3 : Byte} {rest : Bytes} : i < length →
      version.skips c1 = false → InTable [c1, c2, c3] → version.full (lenDest + 1) = false →
      c3 ≠ version.chMask → version.full (lenDest + 2) = false →
      Grouped length (signed 32 (i + 4)) (lenDest + 2) (version.chMask :: rest) →
      Grouped length i lenDest (c1 :: c2 :: c3 :: version.chMask :: rest)
  | fullThree {i lenDest : Int} {c1 c2 c3 c4 : Byte} {rest : Bytes} : i < length →
      version.skips c1 = false → InTable [c1, c2, c3, c4] → version.full (lenDest + 1) = false →
      c3 ≠ version.chMask → version.full (lenDest + 2) = false → c4 ≠ version.chMask →
      version.full (lenDest + 3) = true → Grouped length i lenDest (c1 :: c2 :: c3 :: c4 :: rest)
  | four {i lenDest : Int} {c1 c2 c3 c4 : Byte} {rest : Bytes} : i < length →
      version.skips c1 = false → InTable [c1, c2, c3, c4] → version.full (lenDest + 1) = false →
      c3 ≠ version.chMask → version.full (lenDest + 2) = false → c4 ≠ version.chMask →
      version.full (lenDest + 3) = false →
      Grouped length (signed 32 (i + 4)) (lenDest + 3) rest →
      Grouped length i lenDest (c1 :: c2 :: c3 :: c4 :: rest)

/-! ## Positions and the rest of the source -/

theorem source_inside_iff (position length : Nat) :
    (Access.source position).Inside length ↔ position < length := Iff.rfl

theorem tableAccess_inside_iff (char : Byte) (length : Nat) :
    (tableAccess char).Inside length ↔ char.toNat < 123 := by
  have all : ∀ char : Byte, 0 ≤ char.toBitVec.toInt ∧ char.toBitVec.toInt < DECODE_TABLE.length ↔
      char.toNat < 123 := forall_byte (by decide +kernel)
  exact all char

theorem drop_eq_cons {source : Bytes} {position : Nat} (behind : Nat → Byte)
    (inside : position < source.length) :
    source.drop position = charAt source behind position :: source.drop (position + 1) := by
  rw [List.drop_eq_getElem_cons inside, charAt, if_pos inside, List.getD_eq_getElem?_getD,
    List.getElem?_eq_getElem inside]
  rfl

theorem charAt_of_drop {source : Bytes} {position : Nat} (behind : Nat → Byte) {c : Byte}
    {rest : Bytes} (here : source.drop position = c :: rest) :
    position < source.length ∧ charAt source behind position = c ∧
      source.drop (position + 1) = rest := by
  have inside : position < source.length := by
    have length := congrArg List.length here
    simp only [List.length_drop, List.length_cons] at length
    omega
  rw [drop_eq_cons behind inside, List.cons.injEq] at here
  exact ⟨inside, here⟩

section

variable {version : Version} {source : Bytes} {behind : Nat → Byte}

theorem safeFrom_iff (start : Cursor) :
    version.SafeFrom source behind start ↔
      (start.i < int32 source.length →
        (∀ access ∈ (version.pass (charAt source behind) start).1, access.Inside source.length) ∧
        ∀ later, (version.pass (charAt source behind) start).2 = some later →
          version.SafeFrom source behind later) := by
  constructor
  · intro safe counted
    constructor
    · exact safe start (.here start) counted
    · intro later passed cursor reached
      exact safe cursor (.next counted passed reached)
  · intro first cursor reached counted
    cases reached with
    | here => exact (first counted).1
    | next begun passed reached => exact (first begun).2 _ passed cursor reached counted

/-- Where all passes are safe, the rest of the source is made of groups. -/
theorem grouped_of_safeFrom {position : Nat} {i lenDest : Int}
    (safe : version.SafeFrom source behind ⟨position, i, lenDest⟩) :
    version.Grouped (int32 source.length) i lenDest (source.drop position) := by
  induction remaining : source.length - position using Nat.strong_induction_on
    generalizing position i lenDest with
  | _ count induction =>
      by_cases counted : int32 source.length ≤ i
      · exact .ended counted
      · have begun : i < int32 source.length := Int.not_le.mp counted
        rcases (safeFrom_iff _).mp safe begun with ⟨inside, later⟩
        rw [pass] at inside later
        dsimp only at inside later
        by_cases skipped : version.skips (charAt source behind position) = true
        · rw [if_pos skipped] at inside later
          simp only [List.forall_mem_cons, source_inside_iff] at inside
          rw [drop_eq_cons behind inside.1]
          exact .lineEnd begun skipped (induction _ (by omega) (later _ rfl) rfl)
        · rw [if_neg skipped] at inside later
          rw [Bool.not_eq_true] at skipped
          by_cases one : version.full (lenDest + 1) = true
          · rw [if_pos one] at inside
            simp only [List.forall_mem_cons, source_inside_iff, tableAccess_inside_iff] at inside
            rw [drop_eq_cons behind inside.1, drop_eq_cons behind inside.2.2.1]
            exact .fullOne begun skipped (by simp [InTable, inside]) one
          · rw [if_neg one] at inside later
            rw [Bool.not_eq_true] at one
            by_cases third : charAt source behind (position + 2) = version.chMask
            · rw [if_pos third] at inside later
              simp only [List.cons_append, List.nil_append, List.forall_mem_cons,
                source_inside_iff, tableAccess_inside_iff] at inside
              have rest := induction _ (by omega) (later _ rfl) rfl
              rw [drop_eq_cons behind inside.1, drop_eq_cons behind inside.2.2.1]
              rw [drop_eq_cons behind inside.2.2.2.2.1, third] at rest ⊢
              exact .two begun skipped (by simp [InTable, inside]) one rest
            · rw [if_neg third] at inside later
              by_cases two : version.full (lenDest + 2) = true
              · rw [if_pos two] at inside
                simp only [List.cons_append, List.nil_append, List.forall_mem_cons,
                  source_inside_iff, tableAccess_inside_iff] at inside
                rw [drop_eq_cons behind inside.1, drop_eq_cons behind inside.2.2.1,
                  drop_eq_cons behind inside.2.2.2.2.1]
                exact .fullTwo begun skipped (by simp [InTable, inside]) one third two
              · rw [if_neg two] at inside later
                rw [Bool.not_eq_true] at two
                by_cases fourth : charAt source behind (position + 3) = version.chMask
                · rw [if_pos fourth] at inside later
                  simp only [List.cons_append, List.nil_append, List.forall_mem_cons,
                    source_inside_iff, tableAccess_inside_iff] at inside
                  have rest := induction _ (by omega) (later _ rfl) rfl
                  rw [drop_eq_cons behind inside.1, drop_eq_cons behind inside.2.2.1,
                    drop_eq_cons behind inside.2.2.2.2.1]
                  rw [drop_eq_cons behind inside.2.2.2.2.2.2.1, fourth] at rest ⊢
                  exact .three begun skipped (by simp [InTable, inside]) one third two rest
                · rw [if_neg fourth] at inside later
                  by_cases three : version.full (lenDest + 3) = true
                  · rw [if_pos three] at inside
                    simp only [List.cons_append, List.nil_append, List.forall_mem_cons,
                      source_inside_iff, tableAccess_inside_iff] at inside
                    rw [drop_eq_cons behind inside.1, drop_eq_cons behind inside.2.2.1,
                      drop_eq_cons behind inside.2.2.2.2.1,
                      drop_eq_cons behind inside.2.2.2.2.2.2.1]
                    exact .fullThree begun skipped (by simp [InTable, inside]) one third two
                      fourth three
                  · rw [if_neg three] at inside later
                    rw [Bool.not_eq_true] at three
                    simp only [List.cons_append, List.nil_append, List.forall_mem_cons,
                      source_inside_iff, tableAccess_inside_iff] at inside
                    have rest := induction _ (by omega) (later _ rfl) rfl
                    rw [drop_eq_cons behind inside.1, drop_eq_cons behind inside.2.2.1,
                      drop_eq_cons behind inside.2.2.2.2.1,
                      drop_eq_cons behind inside.2.2.2.2.2.2.1]
                    exact .four begun skipped (by simp [InTable, inside]) one third two fourth
                      three rest

/-- Where the rest of the source is made of groups, all passes are safe. -/
theorem safeFrom_of_grouped (behind : Nat → Byte) {position : Nat} {i lenDest : Int}
    {rest : Bytes} (grouped : version.Grouped (int32 source.length) i lenDest rest)
    (here : source.drop position = rest) :
    version.SafeFrom source behind ⟨position, i, lenDest⟩ := by
  induction grouped generalizing position with
  | ended counted =>
      rw [safeFrom_iff]
      intro begun
      exact absurd counted (Int.not_le.mpr begun)
  | lineEnd _ skipped _ induction =>
      rcases charAt_of_drop behind here with ⟨room, first, next⟩
      rw [safeFrom_iff, pass]
      dsimp only
      rw [first, if_pos skipped]
      intro _
      constructor
      · simpa [source_inside_iff] using room
      · rintro later passed
        cases passed
        exact induction next
  | fullOne _ skipped inTable one =>
      rcases charAt_of_drop behind here with ⟨room1, first, next⟩
      rcases charAt_of_drop behind next with ⟨room2, second, _⟩
      simp only [InTable, List.forall_mem_cons] at inTable
      rw [safeFrom_iff, pass]
      dsimp only
      rw [first, second, skipped, if_neg Bool.false_ne_true, if_pos one]
      intro _
      constructor
      · simp [source_inside_iff, tableAccess_inside_iff, room1, room2, inTable]
      · intro later passed
        cases passed
  | two _ skipped inTable one _ induction =>
      rcases charAt_of_drop behind here with ⟨room1, first, next1⟩
      rcases charAt_of_drop behind next1 with ⟨room2, second, next2⟩
      rcases charAt_of_drop behind next2 with ⟨room3, third, _⟩
      simp only [InTable, List.forall_mem_cons] at inTable
      rw [safeFrom_iff, pass]
      dsimp only
      rw [first, second, third, skipped, one, if_neg Bool.false_ne_true,
        if_neg Bool.false_ne_true, if_pos rfl]
      intro _
      constructor
      · simp [source_inside_iff, tableAccess_inside_iff, room1, room2, room3, inTable]
      · rintro later passed
        cases passed
        exact induction next2
  | fullTwo _ skipped inTable one noPad two =>
      rcases charAt_of_drop behind here with ⟨room1, first, next1⟩
      rcases charAt_of_drop behind next1 with ⟨room2, second, next2⟩
      rcases charAt_of_drop behind next2 with ⟨room3, third, _⟩
      simp only [InTable, List.forall_mem_cons] at inTable
      rw [safeFrom_iff, pass]
      dsimp only
      rw [first, second, third, skipped, one, if_neg Bool.false_ne_true,
        if_neg Bool.false_ne_true, if_neg noPad, if_pos two]
      intro _
      constructor
      · simp [source_inside_iff, tableAccess_inside_iff, room1, room2, room3, inTable]
      · intro later passed
        cases passed
  | three _ skipped inTable one noPad two _ induction =>
      rcases charAt_of_drop behind here with ⟨room1, first, next1⟩
      rcases charAt_of_drop behind next1 with ⟨room2, second, next2⟩
      rcases charAt_of_drop behind next2 with ⟨room3, third, next3⟩
      rcases charAt_of_drop behind next3 with ⟨room4, fourth, _⟩
      simp only [InTable, List.forall_mem_cons] at inTable
      rw [safeFrom_iff, pass]
      dsimp only
      rw [first, second, third, fourth, skipped, one, two, if_neg Bool.false_ne_true,
        if_neg Bool.false_ne_true, if_neg noPad, if_neg Bool.false_ne_true, if_pos rfl]
      intro _
      constructor
      · simp [source_inside_iff, tableAccess_inside_iff, room1, room2, room3, room4, inTable]
      · rintro later passed
        cases passed
        exact induction next3
  | fullThree _ skipped inTable one noPad3 two noPad4 three =>
      rcases charAt_of_drop behind here with ⟨room1, first, next1⟩
      rcases charAt_of_drop behind next1 with ⟨room2, second, next2⟩
      rcases charAt_of_drop behind next2 with ⟨room3, third, next3⟩
      rcases charAt_of_drop behind next3 with ⟨room4, fourth, _⟩
      simp only [InTable, List.forall_mem_cons] at inTable
      rw [safeFrom_iff, pass]
      dsimp only
      rw [first, second, third, fourth, skipped, one, two, if_neg Bool.false_ne_true,
        if_neg Bool.false_ne_true, if_neg noPad3, if_neg Bool.false_ne_true, if_neg noPad4,
        if_pos three]
      intro _
      constructor
      · simp [source_inside_iff, tableAccess_inside_iff, room1, room2, room3, room4, inTable]
      · intro later passed
        cases passed
  | four _ skipped inTable one noPad3 two noPad4 three _ induction =>
      rcases charAt_of_drop behind here with ⟨room1, first, next1⟩
      rcases charAt_of_drop behind next1 with ⟨room2, second, next2⟩
      rcases charAt_of_drop behind next2 with ⟨room3, third, next3⟩
      rcases charAt_of_drop behind next3 with ⟨room4, fourth, next4⟩
      simp only [InTable, List.forall_mem_cons] at inTable
      rw [safeFrom_iff, pass]
      dsimp only
      rw [first, second, third, fourth, skipped, one, two, three, if_neg Bool.false_ne_true,
        if_neg Bool.false_ne_true, if_neg noPad3, if_neg Bool.false_ne_true, if_neg noPad4,
        if_neg Bool.false_ne_true]
      intro _
      constructor
      · simp [source_inside_iff, tableAccess_inside_iff, room1, room2, room3, room4, inTable]
      · rintro later passed
        cases passed
        exact induction next4

end

theorem safe_iff_grouped (version : Version) (source : Bytes) :
    version.Safe source ↔ version.Grouped (int32 source.length) 0 0 source := by
  constructor
  · intro safe
    exact grouped_of_safeFrom (safe fun _ => 0)
  · intro grouped behind
    exact safeFrom_of_grouped behind grouped rfl

end Version

/-! ## Safe texts -/

open Base64 (digit digit_ne digit_range groups Wrapped)
open EncodeUtil (byteAt_of_drop)

theorem digit_inTable (value : Nat) (small : value < 64) :
    (digit value).toNat < 123 ∧ decodeString.skips (digit value) = false ∧
      digit value ≠ decodeString.chMask := by
  have noCr : digit value ≠ 13 := digit_ne small (.inl (by decide))
  have noLf : digit value ≠ 10 := digit_ne small (.inl (by decide))
  have noPad : digit value ≠ decodeString.chMask := digit_ne small (.inr rfl)
  have kept : decodeString.skips (digit value) = false := by
    simp [decodeString, Version.skips, EncodeUtil.lineEnd, noCr, noLf]
  exact ⟨(digit_range small).2.1, kept, noPad⟩

/-- A body in base64 with line breaks between its groups, but none behind padding, is read
safely. -/
theorem grouped_of_wrapped {length : Int} (small : length < 2 ^ 31) {list : List Bytes}
    {body : Bytes} (wrapped : Wrapped list body) {source : Bytes} (own : groups source = list)
    (ends : source.length % 3 = 0 ∨ body.getLast? ≠ some 10) {i : Int} (low : 0 ≤ i)
    (left : i + body.length = length) (lenDest : Int) :
    decodeString.Grouped length i lenDest body := by
  induction wrapped generalizing source i lenDest with
  | nil => exact .ended (by simpa using left.ge)
  | @lineEnd list later wrapped induction =>
      simp only [List.length_cons] at left
      have one : signed 32 (i + 1) = i + 1 := signed_of_lt (by omega) (by omega)
      have two : signed 32 (i + 1 + 1) = i + 1 + 1 := signed_of_lt (by omega) (by omega)
      have noBreak : source.length % 3 = 0 ∨ later.getLast? ≠ some 10 := by
        rcases ends with full | last
        · exact .inl full
        · cases later with
          | nil => exact .inr (by decide)
          | cons char later =>
              rw [List.getLast?_cons_cons, List.getLast?_cons_cons] at last
              exact .inr last
      have rest := induction own noBreak (i := i + 1 + 1) (by omega) (by omega) lenDest
      rw [← two] at rest
      refine .lineEnd (by omega) rfl ?_
      rw [one]
      exact .lineEnd (by omega) rfl rest
  | @group list later group wrapped induction =>
      match source, own with
      | [], own => cases own
      | [c1], own =>
          cases own
          have bound := c1.toNat_lt
          have first := digit_inTable (c1.toNat / 4) (by omega)
          have second := digit_inTable (c1.toNat % 4 * 16) (by omega)
          have last := ends.resolve_left (by simp)
          rw [← padded_ends_iff wrapped (by simp)] at last
          subst last
          simp only [List.length_append, List.length_cons, List.length_nil] at left
          have sum : signed 32 (i + 4) = i + 4 := signed_of_lt (by omega) (by omega)
          refine .two (by omega) first.2.1 (by simp [InTable, first, second]) rfl (.ended ?_)
          rw [sum]
          omega
      | [c1, c2], own =>
          cases own
          have bound1 := c1.toNat_lt
          have bound2 := c2.toNat_lt
          have first := digit_inTable (c1.toNat / 4) (by omega)
          have second :=
            digit_inTable (c1.toNat % 4 * 16 + c2.toNat / 16) (by omega)
          have third := digit_inTable (c2.toNat % 16 * 4) (by omega)
          have last := ends.resolve_left (by simp)
          rw [← padded_ends_iff wrapped (by simp)] at last
          subst last
          simp only [List.length_append, List.length_cons, List.length_nil] at left
          have sum : signed 32 (i + 4) = i + 4 := signed_of_lt (by omega) (by omega)
          refine .three (by omega) first.2.1 (by simp [InTable, first, second, third]) rfl
            third.2.2 rfl (.ended ?_)
          rw [sum]
          omega
      | c1 :: c2 :: c3 :: rest, own =>
          cases own
          have bound1 := c1.toNat_lt
          have bound2 := c2.toNat_lt
          have bound3 := c3.toNat_lt
          have first := digit_inTable (c1.toNat / 4) (by omega)
          have second :=
            digit_inTable (c1.toNat % 4 * 16 + c2.toNat / 16) (by omega)
          have third :=
            digit_inTable (c2.toNat % 16 * 4 + c3.toNat / 64) (by omega)
          have fourth := digit_inTable (c3.toNat % 64) (by omega)
          have size : (c1 :: c2 :: c3 :: rest).length % 3 = rest.length % 3 := by
            simp only [List.length_cons]
            omega
          have noLf : digit (c3.toNat % 64) ≠ 10 := by
            intro same
            have skipped := fourth.2.1
            rw [same] at skipped
            cases skipped
          rw [size, getLast?_append_ne_iff (by simpa using noLf)] at ends
          simp only [List.length_append, List.length_cons, List.length_nil] at left
          have sum : signed 32 (i + 4) = i + 4 := signed_of_lt (by omega) (by omega)
          refine .four (by omega) first.2.1 (by simp [InTable, first, second, third, fourth]) rfl
            third.2.2 rfl fourth.2.2 rfl ?_
          rw [sum]
          exact induction rfl ends (by omega) (by omega) (lenDest + 3)

theorem tableAt_eq_of_lt (platform other : Platform) {char : Byte} (small : char.toNat < 123) :
    tableAt platform char = tableAt other char := by
  have inside : 0 ≤ char.toBitVec.toInt ∧ char.toBitVec.toInt < 123 :=
    (Version.tableAccess_inside_iff char 0).mpr small
  rw [tableAt, tableAt, if_pos inside, if_pos inside]

theorem lineEnd_of_skips {char : Byte} (skipped : decodeString.skips char = true) :
    char = 13 ∨ char = 10 := by
  simpa [Version.skips, EncodeUtil.lineEnd, decodeString] using skipped

theorem ne_lineEnd {char : Byte} (notSkipped : decodeString.skips char = false) :
    char ≠ 13 ∧ char ≠ 10 := by
  simpa [Version.skips, EncodeUtil.lineEnd, decodeString] using notSkipped

theorem decodeLoop_eq_of_grouped (platform other : Platform) {text rest : Bytes}
    {nDataByte count lenDest : Int} (small : nDataByte ≤ 2 ^ 31 - 4)
    (grouped : decodeString.Grouped nDataByte count lenDest rest) {data i : Nat}
    (same : count = i) (here : text.drop data = rest) :
    decodeLoop platform text nDataByte data i = decodeLoop other text nDataByte data i := by
  induction grouped generalizing data i with
  | ended counted =>
      subst same
      rw [decodeLoop_ended platform counted, decodeLoop_ended other counted]
  | lineEnd begun skipped _ induction =>
      subst same
      have sum : signed 32 ((i : Int) + 1) = (i + 1 : Nat) := signed_of_lt (by omega) (by omega)
      rw [decodeLoop_lineEnd platform (lineEnd_of_skips skipped) here begun,
        decodeLoop_lineEnd other (lineEnd_of_skips skipped) here begun]
      exact induction sum (Version.charAt_of_drop (fun _ => 0) here).2.2
  | fullOne begun skipped inTable one => cases one
  | two begun skipped inTable _ _ induction =>
      subst same
      simp only [InTable, List.forall_mem_cons] at inTable
      have sum : signed 32 ((i : Int) + 4) = (i + 4 : Nat) := signed_of_lt (by omega) (by omega)
      have next := List.drop_drop (i := 2) (j := data) (l := text)
      rw [here] at next
      rw [decodeLoop_pair platform begun (ne_lineEnd skipped) here,
        decodeLoop_pair other begun (ne_lineEnd skipped) here,
        tableAt_eq_of_lt platform other inTable.1, tableAt_eq_of_lt platform other inTable.2.1,
        induction sum next.symm]
  | fullTwo begun skipped inTable one third two => cases two
  | three begun skipped inTable _ noPad _ _ induction =>
      subst same
      simp only [InTable, List.forall_mem_cons] at inTable
      have sum : signed 32 ((i : Int) + 4) = (i + 4 : Nat) := signed_of_lt (by omega) (by omega)
      have next := List.drop_drop (i := 3) (j := data) (l := text)
      rw [here] at next
      rw [decodeLoop_triple platform begun (ne_lineEnd skipped) noPad here,
        decodeLoop_triple other begun (ne_lineEnd skipped) noPad here,
        tableAt_eq_of_lt platform other inTable.1, tableAt_eq_of_lt platform other inTable.2.1,
        tableAt_eq_of_lt platform other inTable.2.2.1, induction sum next.symm]
  | fullThree begun skipped inTable one third two fourth three => cases three
  | four begun skipped inTable _ noPad3 _ noPad4 _ _ induction =>
      subst same
      simp only [InTable, List.forall_mem_cons] at inTable
      have sum : signed 32 ((i : Int) + 4) = (i + 4 : Nat) := signed_of_lt (by omega) (by omega)
      have next := List.drop_drop (i := 4) (j := data) (l := text)
      rw [here] at next
      rw [decodeLoop_quadruple platform begun (ne_lineEnd skipped) noPad3 noPad4 here,
        decodeLoop_quadruple other begun (ne_lineEnd skipped) noPad3 noPad4 here,
        tableAt_eq_of_lt platform other inTable.1, tableAt_eq_of_lt platform other inTable.2.1,
        tableAt_eq_of_lt platform other inTable.2.2.1,
        tableAt_eq_of_lt platform other inTable.2.2.2.1, induction sum next.symm]

theorem decode_eq_of_safe (platform other : Platform) {text : Bytes}
    (small : int32 text.length ≤ 2 ^ 31 - 4) (safe : decodeString.Safe text) :
    decode platform text = decode other text :=
  decodeLoop_eq_of_grouped platform other small ((decodeString.safe_iff_grouped text).mp safe)
    rfl rfl

theorem safe_of_wrapped {source text : Bytes} (wrapped : Wrapped (groups source) text)
    (small : text.length < 2 ^ 31) (ends : source.length % 3 = 0 ∨ text.getLast? ≠ some 10) :
    decodeString.Safe text :=
  (decodeString.safe_iff_grouped text).mpr
    (grouped_of_wrapped (by rw [int32_of_lt small]; omega) wrapped rfl ends (Int.le_refl 0)
      (by rw [int32_of_lt small, Int.zero_add]) 0)

/-! ## The decoders -/

/-- Each version is safe exactly on the sources that are made of groups as it reads them. -/
theorem decode_safe_iff_grouped (source : Bytes) (chMask : Byte) (maxDest : Int) :
    ((decodeChars chMask maxDest).Safe source ↔
      (decodeChars chMask maxDest).Grouped (int32 source.length) 0 0 source) ∧
    (decodeString.Safe source ↔ decodeString.Grouped (int32 source.length) 0 0 source) :=
  ⟨(decodeChars chMask maxDest).safe_iff_grouped source, decodeString.safe_iff_grouped source⟩

/-- A group of three characters is read to its fourth byte, and a byte of a Chinese text in
GB2312 is looked up in front of the table. -/
theorem decode_reads_outside :
    ¬ (decodeChars 61 100).Safe (ascii "QUJ") ∧ ¬ decodeString.Safe (ascii "QUJ") ∧
      ¬ (decodeChars 61 100).Safe [0xC4, 0xE3, 0x3D, 0x3D] ∧
      ¬ decodeString.Safe [0xC4, 0xE3, 0x3D, 0x3D] := by
  have first : ∀ (version : Version) (source : Bytes), (0 : Int) < int32 source.length →
      (¬ ∀ access ∈ (version.pass (charAt source fun _ => 0) ⟨0, 0, 0⟩).1,
        access.Inside source.length) → ¬ version.Safe source := by
    intro version source begun outside safe
    exact outside (safe (fun _ => 0) ⟨0, 0, 0⟩ (.here _) begun)
  exact ⟨first _ _ (by decide) (by decide +kernel), first _ _ (by decide) (by decide +kernel),
    first _ _ (by decide) (by decide +kernel), first _ _ (by decide) (by decide +kernel)⟩

end MyBookSources.RecvMail.Base64Util
