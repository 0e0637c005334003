import MyBookSources.Foundation.QuotedPrintable
import MyBookSources.Foundation.SequentialWrites
import MyBookSources.RecvMail.EncodeUtil

/-! # The memory of the quoted-printable decoder

`DecodeQuotedPrintable` with what it reads of its source and writes to its destination. Its
cursors are `long`s, which have 32 bits in the builds for Windows.
-/

namespace MyBookSources.RecvMail.EncodeUtil

open SequentialWrites

/-! ## The decoder -/

/-- The variables of `DecodeQuotedPrintable`, the positions of `pSrc` it has read and what it
has written to `pDest`. -/
structure Cursors where
  step : Nat
  before : Nat
  offset : Nat
  reads : List Nat
  writes : List Write

namespace Cursors

def read (cursors : Cursors) (position : Nat) : Cursors :=
  { cursors with reads := cursors.reads ++ [position] }

def write (cursors : Cursors) (bytes : Bytes) : Cursors :=
  { cursors with
    step := cursors.step + bytes.length
    writes := cursors.writes ++ [⟨cursors.step, bytes⟩] }

/-- The bytes from `before` up to `last` are copied. -/
def copy (cursors : Cursors) (pSrc : Nat → Byte) (last : Nat) : Cursors :=
  let run := List.range' cursors.before (last - cursors.before)
  { cursors.write (run.map pSrc) with reads := cursors.reads ++ run }

/-- Both cursors are set behind the byte at `offset`. -/
def skip (cursors : Cursors) : Cursors :=
  { cursors with before := cursors.offset + 1, offset := cursors.offset + 1 }

def octet (first second : Byte) : Byte :=
  (digitValue first <<< 4) ||| (digitValue second &&& 0x0F)

def pass (pSrc : Nat → Byte) (cursors : Cursors) : Cursors :=
  let cursors := cursors.read cursors.offset
  if pSrc cursors.offset ≠ 61 then { cursors with offset := cursors.offset + 1 }
  else
    let cursors := (cursors.copy pSrc cursors.offset).skip
    let cursors := cursors.read cursors.offset
    if lineEnd (pSrc cursors.offset) then
      let cursors := cursors.skip
      let cursors := cursors.read cursors.offset
      if lineEnd (pSrc cursors.offset) then cursors.skip else cursors
    else
      let first := pSrc cursors.offset
      let cursors := { cursors with offset := cursors.offset + 1 }
      let cursors := cursors.read cursors.offset
      (cursors.write [octet first (pSrc cursors.offset)]).skip

theorem offset_lt_pass (pSrc : Nat → Byte) (cursors : Cursors) :
    cursors.offset < (cursors.pass pSrc).offset := by
  unfold pass
  dsimp only
  split
  · exact Nat.lt_succ_self _
  · split
    · split <;> simp only [skip, read, copy, write] <;> omega
    · simp only [skip, read, copy, write]
      omega

def loop (pSrc : Nat → Byte) (LEN : Int) (cursors : Cursors) : Cursors :=
  let next := cursors.pass pSrc
  if next.offset < LEN then loop pSrc LEN next else next
  termination_by (LEN - cursors.offset).toNat
  decreasing_by
    have forward := offset_lt_pass pSrc cursors
    simp only [next] at *
    omega

end Cursors

structure Effects where
  reads : List Nat
  writes : List Write

/-- `DecodeQuotedPrintable` of a text in memory. Neither `before` nor `step` is ever ahead of
`offset`, so the only sum that can leave its type is `offset`; the behaviour is undefined
then. -/
def DecodeQuotedPrintableInto (platform : Platform) (text : Bytes) : Option Effects :=
  let pSrc := byteAt platform (cString text)
  let LEN := int32 (cString text).length
  let strlen := List.range ((cString text).length + 1)
  let cursors := Cursors.loop pSrc LEN ⟨0, 0, 0, strlen, []⟩
  if 2 ^ 31 ≤ cursors.offset then none
  else
    let cursors := if cursors.before < LEN then cursors.copy pSrc LEN.toNat else cursors
    let cursors := cursors.write [0]
    some ⟨cursors.reads, cursors.writes⟩

/-! ## Texts by their tokens -/

/-- What the decoder takes one after the other: an equals sign with one or two line ends, with
any two bytes, with the last byte of the text, or alone at its end. -/
inductive Token
  | literal (byte : Byte)
  | softBreak (lineEnds : Nat)
  | escape (first second : Byte)
  | cutEscape (first : Byte)
  | sign
  deriving DecidableEq

def tokens : Bytes → List Token
  | [] => []
  | byte :: rest =>
      if byte ≠ 61 then .literal byte :: tokens rest
      else
        match rest with
        | [] => [.sign]
        | [first] => if lineEnd first then [.softBreak 1] else [.cutEscape first]
        | first :: second :: rest =>
            if lineEnd first then
              if lineEnd second then .softBreak 2 :: tokens rest
              else .softBreak 1 :: tokens (second :: rest)
            else .escape first second :: tokens rest

theorem tokens_of_ne {byte : Byte} (other : byte ≠ 61) (rest : Bytes) :
    tokens (byte :: rest) = .literal byte :: tokens rest := by
  rw [tokens.eq_def]
  exact if_pos other

theorem tokens_escape {first : Byte} (noEnd : lineEnd first = false) (second : Byte)
    (rest : Bytes) :
    tokens (61 :: first :: second :: rest) = .escape first second :: tokens rest := by
  rw [tokens, if_neg (by decide), noEnd]
  rfl

theorem tokens_softBreak {first second : Byte} (ended : lineEnd first = true)
    (both : lineEnd second = true) (rest : Bytes) :
    tokens (61 :: first :: second :: rest) = .softBreak 2 :: tokens rest := by
  rw [tokens, if_neg (by decide), if_pos ended, if_pos both]

namespace Token

/-- How far a token moves `offset`. -/
def advance : Token → Nat
  | literal _ => 1
  | softBreak lineEnds => 1 + lineEnds
  | escape _ _ => 3
  | cutEscape _ => 3
  | sign => 3

/-- The bytes a token is decoded to. A single sign takes the zero of the text and the byte
behind it for digits. -/
def decoded (platform : Platform) : Token → Bytes
  | literal byte => [byte]
  | softBreak _ => []
  | escape first second => [Cursors.octet first second]
  | cutEscape first => [Cursors.octet first 0]
  | sign => [Cursors.octet 0 (platform.behind 0)]

def isLiteral : Token → Bool
  | literal _ => true
  | _ => false

def isSoftBreak : Token → Bool
  | softBreak _ => true
  | _ => false

theorem decoded_eq_nil_iff (platform : Platform) (token : Token) :
    token.decoded platform = [] ↔ token.isSoftBreak := by
  cases token <;> simp [decoded, isSoftBreak]

end Token

def advance (list : List Token) : Nat := (list.map Token.advance).sum

def decoded (platform : Platform) (list : List Token) : Bytes :=
  list.flatMap (Token.decoded platform)

@[simp] theorem advance_nil : advance [] = 0 := rfl

@[simp] theorem advance_cons (token : Token) (rest : List Token) :
    advance (token :: rest) = token.advance + advance rest := by
  simp [advance]

@[simp] theorem decoded_nil (platform : Platform) : decoded platform [] = [] := rfl

@[simp] theorem decoded_cons (platform : Platform) (token : Token) (rest : List Token) :
    decoded platform (token :: rest) = token.decoded platform ++ decoded platform rest := rfl

@[simp] theorem decoded_append (platform : Platform) (front back : List Token) :
    decoded platform (front ++ back) = decoded platform front ++ decoded platform back := by
  simp [decoded]

/-- The tokens that begin in front of `LEN`; the loop begins with a token wherever `LEN` is,
but does not copy a literal there. -/
def taken (LEN : Int) : Nat → List Token → List Token
  | _, [] => []
  | offset, token :: rest =>
      if offset < LEN ∨ (offset = 0 ∧ token.isLiteral = false) then
        token :: taken LEN (offset + token.advance) rest
      else []

def takenOf (text : Bytes) : List Token := taken (int32 text.length) 0 (tokens text)

/-! ## One pass -/

theorem map_byteAt_range' (platform : Platform) {text : Bytes} {first last : Nat}
    (inside : last ≤ text.length) :
    (List.range' first (last - first)).map (byteAt platform text) = text.slice first last := by
  apply List.ext_getElem
  · rw [List.length_map, List.length_range', Bytes.length_slice inside]
  · intro index left right
    rw [List.length_map, List.length_range'] at left
    have here : first + index < text.length := by omega
    simp only [List.getElem_map, List.getElem_range', Nat.one_mul, Bytes.slice,
      List.getElem_drop, List.getElem_take, byteAt]
    rw [if_pos here, List.getD_eq_getElem?_getD, List.getElem?_eq_getElem here]
    rfl

namespace Cursors

/-- The bytes are written one behind the other from the start of `pDest` on. -/
def Wrote (written : Bytes) (cursors : Cursors) : Prop :=
  ∃ pieces : List Bytes, pieces.flatten = written ∧ cursors.writes = placed 0 pieces ∧
    cursors.step = written.length

theorem wrote_write {written : Bytes} {cursors : Cursors} (wrote : cursors.Wrote written)
    (bytes : Bytes) : (cursors.write bytes).Wrote (written ++ bytes) := by
  rcases wrote with ⟨pieces, rfl, writes, step⟩
  refine ⟨pieces ++ [bytes], by simp, ?_, ?_⟩
  · rw [write, writes, step, placed_concat]
  · rw [write, step, List.length_append]

theorem pass_literal {pSrc : Nat → Byte} {cursors : Cursors}
    (other : pSrc cursors.offset ≠ 61) :
    cursors.pass pSrc =
      { cursors with
        offset := cursors.offset + 1
        reads := cursors.reads ++ [cursors.offset] } := by
  rw [pass, read, if_pos other]

/-- Behind an equals sign nothing is left to be copied, and the next two positions have been
looked at. -/
theorem pass_sign {pSrc : Nat → Byte} {cursors : Cursors} {first second : Byte}
    (sign : pSrc cursors.offset = 61) (one : pSrc (cursors.offset + 1) = first)
    (two : pSrc (cursors.offset + 2) = second) :
    let next := cursors.pass pSrc
    let run := List.range' cursors.before (cursors.offset - cursors.before)
    next.before = next.offset ∧
    next.offset = cursors.offset + (if lineEnd first ∧ ¬ lineEnd second then 2 else 3) ∧
    next.reads =
      cursors.reads ++ [cursors.offset] ++ run ++ [cursors.offset + 1, cursors.offset + 2] ∧
    ∀ written, cursors.Wrote written →
      next.Wrote (written ++ run.map pSrc ++
        if lineEnd first then [] else [octet first second]) := by
  have copied : ∀ written, cursors.Wrote written →
      (cursors.copy pSrc cursors.offset).Wrote (written ++
        (List.range' cursors.before (cursors.offset - cursors.before)).map pSrc) :=
    fun written wrote => wrote_write wrote _
  subst one two
  unfold pass
  dsimp only
  split
  · next other => exact absurd sign other
  · split
    · next ended =>
        have ended : lineEnd (pSrc (cursors.offset + 1)) = true := ended
        split
        · next both =>
            have both : lineEnd (pSrc (cursors.offset + 2)) = true := both
            rw [if_neg (by simp [both])]
            refine ⟨rfl, rfl, by simp [read, copy, skip, write], ?_⟩
            intro written wrote
            rw [List.append_nil]
            exact copied written wrote
        · next both =>
            have both : ¬ lineEnd (pSrc (cursors.offset + 2)) = true := both
            rw [if_pos ⟨ended, both⟩]
            refine ⟨rfl, rfl, by simp [read, copy, skip, write], ?_⟩
            intro written wrote
            rw [List.append_nil]
            exact copied written wrote
    · next ended =>
        have ended : ¬ lineEnd (pSrc (cursors.offset + 1)) = true := ended
        rw [if_neg (by simp [ended]), if_neg ended]
        refine ⟨rfl, rfl, by simp [read, copy, skip, write], ?_⟩
        intro written wrote
        exact wrote_write (copied written wrote) _

end Cursors

/-! ## The tokens and the memory -/

theorem length_of_drop {text rest : Bytes} {offset : Nat} (here : text.drop offset = rest)
    (some_byte : rest ≠ []) : text.length = offset + rest.length := by
  have length := congrArg List.length here
  have positive := List.length_pos_iff.mpr some_byte
  rw [List.length_drop] at length
  omega

theorem literal_of_tokens (platform : Platform) {text : Bytes} {offset : Nat} {byte : Byte}
    {rest : List Token} (here : tokens (text.drop offset) = .literal byte :: rest) :
    byteAt platform text offset ≠ 61 ∧ text.slice offset (offset + 1) = [byte] ∧
      tokens (text.drop (offset + 1)) = rest ∧ offset < text.length := by
  cases next : text.drop offset with
  | nil =>
      rw [next] at here
      cases here
  | cons head tail =>
      have length := length_of_drop next (List.cons_ne_nil _ _)
      have tailAt : text.drop (offset + 1) = tail := by
        rw [← List.drop_drop, next, List.drop_one, List.tail_cons]
      rw [next, tokens.eq_def] at here
      dsimp only at here
      split at here
      · next other =>
          rw [List.cons.injEq, Token.literal.injEq] at here
          rcases here with ⟨rfl, rfl⟩
          have char : byteAt platform text (offset + 0) = head :=
            byteAt_of_drop platform _ (by rw [next]; rfl)
          rw [Nat.add_zero] at char
          refine ⟨char ▸ other, ?_, by rw [tailAt], by rw [length, List.length_cons]; omega⟩
          rw [Bytes.slice, List.drop_take, next, Nat.add_sub_cancel_left]
          rfl
      · exfalso
        split at here
        · cases here
        · split at here <;> cases here
        · split at here
          · split at here <;> cases here
          · cases here

theorem sign_of_tokens (platform : Platform) {text : Bytes} {offset : Nat} {token : Token}
    {rest : List Token} {first second : Byte}
    (here : tokens (text.drop offset) = token :: rest) (other : token.isLiteral = false)
    (one : byteAt platform text (offset + 1) = first)
    (two : byteAt platform text (offset + 2) = second) :
    byteAt platform text offset = 61 ∧
      token.advance = (if lineEnd first ∧ ¬ lineEnd second then 2 else 3) ∧
      token.decoded platform = (if lineEnd first then [] else [Cursors.octet first second]) ∧
      tokens (text.drop (offset + token.advance)) = rest ∧
      offset < text.length ∧ (offset + 2 ≤ text.length ↔ token ≠ .sign) := by
  have here_at : ∀ (count : Nat) (char : Byte), (text.drop offset)[count]? = some char →
      byteAt platform text (offset + count) = char :=
    fun count char found => byteAt_of_drop platform count found
  have dropped : ∀ count, text.drop (offset + count) = (text.drop offset).drop count :=
    fun count => List.drop_drop.symm
  have zero : lineEnd 0 = false := by decide
  match next : text.drop offset with
  | [] =>
      rw [next] at here
      cases here
  | [byte] =>
      have length := length_of_drop next (List.cons_ne_nil _ _)
      rw [List.length_singleton] at length
      rw [← length, byteAt_length] at one
      rw [show offset + 2 = text.length + 1 by omega, byteAt_length_succ] at two
      subst one two
      rw [next] at here_at dropped here
      by_cases sign : byte = 61
      · subst sign
        rw [tokens, if_neg (by decide)] at here
        cases here
        rw [zero]
        exact ⟨here_at 0 61 rfl, rfl, rfl, by rw [dropped]; rfl, by omega, by simp; omega⟩
      · rw [tokens, if_pos sign] at here
        cases here
        cases other
  | [byte, next_byte] =>
      have length := length_of_drop next (List.cons_ne_nil _ _)
      rw [List.length_cons, List.length_singleton] at length
      rw [show offset + 2 = text.length by omega, byteAt_length] at two
      rw [next] at here_at dropped here
      rw [here_at 1 next_byte rfl] at one
      subst one two
      by_cases sign : byte = 61
      · subst sign
        rw [tokens, if_neg (by decide)] at here
        cases ended : lineEnd next_byte with
        | true =>
            rw [ended] at here
            cases here
            exact ⟨here_at 0 61 rfl, by simp [zero]; rfl, rfl, by rw [dropped]; rfl, by omega,
              by simp; omega⟩
        | false =>
            rw [ended] at here
            cases here
            exact ⟨here_at 0 61 rfl, by simp; rfl, rfl, by rw [dropped]; rfl, by omega,
              by simp; omega⟩
      · rw [tokens, if_pos sign] at here
        cases here
        cases other
  | byte :: first_byte :: second_byte :: tail =>
      have length := length_of_drop next (List.cons_ne_nil _ _)
      rw [List.length_cons, List.length_cons, List.length_cons] at length
      rw [next] at here_at dropped here
      rw [here_at 1 first_byte rfl] at one
      rw [here_at 2 second_byte rfl] at two
      subst one two
      by_cases sign : byte = 61
      · subst sign
        rw [tokens, if_neg (by decide)] at here
        cases ended : lineEnd first_byte with
        | true =>
            cases both : lineEnd second_byte with
            | true =>
                rw [ended, both] at here
                cases here
                exact ⟨here_at 0 61 rfl, by simp; rfl, rfl, by rw [dropped]; rfl, by omega,
                  by simp; omega⟩
            | false =>
                rw [ended, both] at here
                cases here
                exact ⟨here_at 0 61 rfl, by simp; rfl, rfl, by rw [dropped]; rfl, by omega,
                  by simp; omega⟩
        | false =>
            rw [ended] at here
            cases here
            exact ⟨here_at 0 61 rfl, by simp; rfl, rfl, by rw [dropped]; rfl, by omega,
              by simp; omega⟩
      · rw [tokens, if_pos sign] at here
        cases here
        cases other

/-! ## The loop over the tokens -/

/-- Where the loop stands when the tokens `done` are behind it and the tokens `todo` in front:
what is written, with the bytes that wait for being copied, is what the tokens stand for. -/
structure Follows (platform : Platform) (text : Bytes) (done todo : List Token)
    (cursors : Cursors) : Prop where
  offset : cursors.offset = advance done
  todo : tokens (text.drop cursors.offset) = todo
  before : cursors.before ≤ cursors.offset
  wrote : ∃ written, cursors.Wrote written ∧
    written ++ text.slice cursors.before cursors.offset = decoded platform done
  reads : (∀ position ∈ cursors.reads, position ≤ text.length) ↔ Token.sign ∉ done

theorem slice_self (text : Bytes) (position : Nat) : text.slice position position = [] := by
  rw [Bytes.slice, List.drop_eq_nil_iff, List.length_take]
  omega

theorem follows_pass {platform : Platform} {text : Bytes} {done rest : List Token}
    {token : Token} {cursors : Cursors}
    (follows : Follows platform text done (token :: rest) cursors) :
    Follows platform text (done ++ [token]) rest (cursors.pass (byteAt platform text)) := by
  have here := follows.todo
  have ordered := follows.before
  rcases follows.wrote with ⟨written, wrote, pending⟩
  have moved : advance (done ++ [token]) = cursors.offset + token.advance := by
    rw [follows.offset, advance, advance, List.map_append, List.sum_append]
    rfl
  cases kind : token.isLiteral with
  | true =>
      cases token with
      | literal byte =>
          rcases literal_of_tokens platform here with ⟨other, own, next, inside⟩
          rw [Cursors.pass_literal other]
          refine ⟨moved.symm, next, Nat.le_succ_of_le ordered, ⟨written, wrote, ?_⟩, ?_⟩
          · change written ++ text.slice cursors.before (cursors.offset + 1) = _
            rw [← Bytes.slice_append ordered (Nat.le_succ _) inside, own, ← List.append_assoc,
              pending, decoded_append]
            rfl
          · have signs : Token.sign ∉ done ++ [.literal byte] ↔ Token.sign ∉ done := by simp
            rw [signs, ← follows.reads]
            simp only [List.forall_mem_append, List.forall_mem_singleton]
            exact and_iff_left (Nat.le_of_lt inside)
      | _ => cases kind
  | false =>
      rcases sign_of_tokens platform here kind rfl rfl with
        ⟨sign, long, value, next, inside, whole⟩
      rcases Cursors.pass_sign sign rfl rfl with ⟨skipped, offset, reads, writes⟩
      rw [← long] at offset
      refine ⟨?_, ?_, Nat.le_of_eq skipped, ⟨_, writes written wrote, ?_⟩, ?_⟩
      · rw [offset, moved]
      · rw [offset, next]
      · rw [skipped, slice_self, List.append_nil,
          map_byteAt_range' platform (Nat.le_of_lt inside), pending, decoded_append, ← value]
        simp
      · have signs : Token.sign ∉ done ++ [token] ↔ Token.sign ∉ done ∧ token ≠ .sign := by
          simp [eq_comm]
        have run : ∀ position ∈ List.range' cursors.before (cursors.offset - cursors.before),
            position ≤ text.length := by
          intro position member
          rw [List.mem_range'_1] at member
          omega
        rw [signs, ← follows.reads, reads, ← whole]
        simp only [List.forall_mem_append, List.forall_mem_singleton, List.forall_mem_cons]
        constructor
        · rintro ⟨⟨⟨earlier, _⟩, _⟩, _, two⟩
          exact ⟨earlier, two⟩
        · rintro ⟨earlier, two⟩
          exact ⟨⟨⟨earlier, Nat.le_of_lt inside⟩, run⟩, by omega, two⟩

theorem before_pass (platform : Platform) {text : Bytes} {rest : List Token} {token : Token}
    {cursors : Cursors} (here : tokens (text.drop cursors.offset) = token :: rest) :
    let next := cursors.pass (byteAt platform text)
    next.before < next.offset → next.offset = cursors.offset + 1 := by
  cases kind : token.isLiteral with
  | true =>
      cases token with
      | literal byte =>
          rcases literal_of_tokens platform here with ⟨other, _⟩
          rw [Cursors.pass_literal other]
          intro _ _
          rfl
      | _ => cases kind
  | false =>
      rcases sign_of_tokens platform here kind rfl rfl with ⟨sign, _⟩
      rcases Cursors.pass_sign sign rfl rfl with ⟨skipped, _⟩
      dsimp only
      rw [skipped]
      exact fun pending => absurd pending (Nat.lt_irrefl _)

theorem tokens_eq_nil_iff (text : Bytes) : tokens text = [] ↔ text = [] := by
  constructor
  · intro none
    unfold tokens at none
    split at none
    · rfl
    · split at none
      · cases none
      · split at none
        · cases none
        · split at none <;> cases none
        · split at none
          · split at none <;> cases none
          · cases none
  · rintro rfl
    rfl

theorem follows_loop {platform : Platform} {text : Bytes} {LEN : Int} {todo : List Token}
    (length : LEN ≤ text.length) {done : List Token} {cursors : Cursors}
    (follows : Follows platform text done todo cursors) (begun : cursors.offset < LEN) :
    let last := cursors.loop (byteAt platform text) LEN
    ∃ rest, Follows platform text (done ++ taken LEN cursors.offset todo) rest last ∧
      LEN ≤ last.offset ∧ (last.before < last.offset → last.offset = LEN) := by
  induction todo generalizing done cursors with
  | nil =>
      have ended := (tokens_eq_nil_iff _).mp follows.todo
      rw [List.drop_eq_nil_iff] at ended
      omega
  | cons token rest induction =>
      have next := follows_pass follows
      have pending := before_pass platform follows.todo
      have moved : (cursors.pass (byteAt platform text)).offset =
          cursors.offset + token.advance := by
        rw [next.offset, follows.offset, advance, advance, List.map_append, List.sum_append]
        rfl
      have forward := Cursors.offset_lt_pass (byteAt platform text) cursors
      have split : done ++ token :: taken LEN (cursors.offset + token.advance) rest =
          done ++ [token] ++ taken LEN (cursors.offset + token.advance) rest := by
        rw [List.append_assoc]
        rfl
      rw [taken, if_pos (.inl begun), split, ← moved, Cursors.loop]
      by_cases again : ((cursors.pass (byteAt platform text)).offset : Int) < LEN
      · rw [if_pos again]
        exact induction next again
      · rw [if_neg again]
        have ended : taken LEN (cursors.pass (byteAt platform text)).offset rest = [] := by
          cases rest with
          | nil => rfl
          | cons later more =>
              rw [taken, if_neg]
              rintro (early | ⟨start, _⟩)
              · exact again early
              · omega
        rw [ended, List.append_nil]
        refine ⟨rest, next, by omega, ?_⟩
        intro waits
        have one := pending waits
        omega

/-! ## What a call reads and writes -/

/-- `bytes` are written one behind the other, and only the positions of the text and its zero
are read, unless the decoder took a single sign. -/
structure Leaves (text bytes : Bytes) (done : List Token) (effects : Effects) : Prop where
  writes : ∃ pieces, effects.writes = placed 0 pieces ∧ pieces.flatten = bytes
  reads : (∀ position ∈ effects.reads, position ≤ text.length) ↔ Token.sign ∉ done

theorem leaves_of_wrote {text : Bytes} (bytes : Bytes) {done : List Token} {cursors : Cursors}
    (wrote : cursors.Wrote bytes)
    (reads : (∀ position ∈ cursors.reads, position ≤ text.length) ↔ Token.sign ∉ done) :
    let last := cursors.write [0]
    Leaves text (bytes ++ [0]) done ⟨last.reads, last.writes⟩ := by
  rcases Cursors.wrote_write wrote [0] with ⟨pieces, same, writes, _⟩
  exact ⟨⟨pieces, writes, same⟩, reads⟩

theorem follows_start (platform : Platform) (text : Bytes) :
    Follows platform text [] (tokens text)
      ⟨0, 0, 0, List.range (text.length + 1), []⟩ where
  offset := rfl
  todo := rfl
  before := Nat.le_refl 0
  wrote := ⟨[], ⟨[], rfl, rfl, rfl⟩, rfl⟩
  reads := by
    refine iff_of_true ?_ List.not_mem_nil
    intro position member
    rw [List.mem_range] at member
    omega

theorem leaves_of_follows {platform : Platform} {text : Bytes} {LEN : Nat}
    {done rest : List Token} {cursors : Cursors} (length : LEN ≤ text.length)
    (follows : Follows platform text done rest cursors) (reached : LEN ≤ cursors.offset)
    (waits : cursors.before < cursors.offset → cursors.offset = LEN) :
    let copied := if (cursors.before : Int) < LEN then
      cursors.copy (byteAt platform text) LEN else cursors
    let last := copied.write [0]
    Leaves text (decoded platform done ++ [0]) done ⟨last.reads, last.writes⟩ := by
  have ordered := follows.before
  rcases follows.wrote with ⟨written, wrote, pending⟩
  by_cases more : (cursors.before : Int) < LEN
  · have ended : cursors.offset = LEN := waits (by omega)
    rw [if_pos more]
    apply leaves_of_wrote
    · have copied := Cursors.wrote_write wrote
        ((List.range' cursors.before (LEN - cursors.before)).map (byteAt platform text))
      rw [map_byteAt_range' platform length] at copied
      rw [← pending, ended]
      rw [← map_byteAt_range' platform length] at copied ⊢
      exact copied
    · rw [← follows.reads]
      change (∀ position ∈ cursors.reads ++ List.range' cursors.before (LEN - cursors.before),
        position ≤ text.length) ↔ _
      rw [List.forall_mem_append]
      apply and_iff_left
      intro position member
      rw [List.mem_range'_1] at member
      omega
  · have same : cursors.before = cursors.offset := by
      by_contra differ
      have ended := waits (by omega)
      omega
    rw [if_neg more]
    apply leaves_of_wrote
    · rw [← pending, same, slice_self, List.append_nil]
      exact wrote
    · exact follows.reads

theorem advance_le (platform : Platform) {text : Bytes} {offset : Nat} {token : Token}
    {rest : List Token} (here : tokens (text.drop offset) = token :: rest) :
    token.advance ≤ 3 := by
  cases kind : token.isLiteral with
  | true =>
      cases token with
      | literal byte => exact Nat.le_of_ble_eq_true rfl
      | _ => cases kind
  | false =>
      have long := (sign_of_tokens platform here kind rfl rfl).2.1
      split at long <;> omega

theorem leaves_first (platform : Platform) (text : Bytes) {LEN : Int} (none : LEN ≤ 0) :
    let first := (Cursors.mk 0 0 0 (List.range (text.length + 1)) []).pass
      (byteAt platform text)
    let done := taken LEN 0 (tokens text)
    let last := first.write [0]
    first.offset ≤ 3 ∧ advance done ≤ 3 ∧
      Leaves text (decoded platform done ++ [0]) done ⟨last.reads, last.writes⟩ := by
  have follows := follows_start platform text
  have wrote : (Cursors.mk 0 0 0 (List.range (text.length + 1)) []).Wrote [] :=
    ⟨[], rfl, rfl, rfl⟩
  cases same : tokens text with
  | nil =>
      have empty := (tokens_eq_nil_iff text).mp same
      subst empty
      have other : byteAt platform [] 0 ≠ 61 := by
        rw [show (0 : Nat) = ([] : Bytes).length from rfl, byteAt_length]
        decide
      rw [Cursors.pass_literal other]
      refine ⟨by decide, by simp [taken], leaves_of_wrote [] wrote ?_⟩
      exact iff_of_true (by simp) List.not_mem_nil
  | cons token rest =>
      rw [same] at follows
      have next := follows_pass follows
      have short := advance_le platform follows.todo
      have moved : token.advance =
          ((Cursors.mk 0 0 0 (List.range (text.length + 1)) []).pass
            (byteAt platform text)).offset := by
        rw [next.offset]
        rfl
      have positive : 0 < token.advance := by
        rw [moved]
        exact Cursors.offset_lt_pass (byteAt platform text)
          ⟨0, 0, 0, List.range (text.length + 1), []⟩
      have alone : taken LEN (0 + token.advance) rest = [] := by
        cases rest with
        | nil => rfl
        | cons later more =>
            rw [taken, if_neg]
            rintro (early | ⟨start, _⟩) <;> omega
      refine ⟨moved ▸ short, ?_⟩
      cases kind : token.isLiteral with
      | true =>
          cases token with
          | literal byte =>
              rcases literal_of_tokens platform follows.todo with ⟨other, _⟩
              have nothing : taken LEN 0 (.literal byte :: rest) = [] := by
                rw [taken, if_neg]
                rintro (early | ⟨_, differ⟩)
                · omega
                · cases differ
              rw [nothing]
              refine ⟨Nat.zero_le _, ?_⟩
              apply leaves_of_wrote []
              · rw [Cursors.pass_literal other]
                exact wrote
              · rw [next.reads]
                simp
          | _ => cases kind
      | false =>
          have single : taken LEN 0 (token :: rest) = [token] := by
            rw [taken, if_pos (.inr ⟨rfl, kind⟩), alone]
          rcases sign_of_tokens platform follows.todo kind rfl rfl with ⟨sign, _⟩
          rcases Cursors.pass_sign sign rfl rfl with ⟨skipped, _⟩
          rcases next.wrote with ⟨written, wrote, pending⟩
          rw [skipped, slice_self, List.append_nil, List.nil_append] at pending
          rw [single, ← pending]
          exact ⟨short, leaves_of_wrote _ wrote next.reads⟩

/-- A call leaves what the tokens it takes stand for, as long as the last of them ends inside
a `long`. -/
theorem effects_spec (platform : Platform) (source : Bytes) :
    let text := cString source
    let done := takenOf text
    if 2 ^ 31 ≤ advance done then DecodeQuotedPrintableInto platform source = none
    else ∃ effects, DecodeQuotedPrintableInto platform source = some effects ∧
      Leaves text (decoded platform done ++ [0]) done effects := by
  dsimp only
  unfold DecodeQuotedPrintableInto takenOf
  generalize cString source = text
  dsimp only
  have start := follows_start platform text
  by_cases positive : 0 < int32 text.length
  · obtain ⟨LEN, length⟩ := Int.eq_ofNat_of_zero_le (Int.le_of_lt positive)
    have inside := int32_le text.length
    rw [length] at positive inside ⊢
    rcases follows_loop inside start positive with ⟨rest, follows, reached, waits⟩
    rw [List.nil_append] at follows
    rw [← follows.offset]
    split
    · rfl
    · exact ⟨_, rfl, leaves_of_follows (Int.ofNat_le.mp inside) follows
        (Int.ofNat_le.mp reached) fun pending => Int.ofNat_inj.mp (waits pending)⟩
  · have none : int32 text.length ≤ 0 := Int.not_lt.mp positive
    rcases leaves_first platform text none with ⟨near, short, leaves⟩
    have once : Cursors.loop (byteAt platform text) (int32 text.length)
        ⟨0, 0, 0, List.range (text.length + 1), []⟩ =
        (Cursors.mk 0 0 0 (List.range (text.length + 1)) []).pass (byteAt platform text) := by
      rw [Cursors.loop]
      apply if_neg
      omega
    rw [once, if_neg (by omega), if_neg (by omega)]
    refine ⟨_, rfl, ?_⟩
    rw [if_neg (by omega)]
    exact leaves

/-! ## Texts that fit a `long` -/

theorem taken_of_length {LEN : Int} {rest : Bytes} {offset : Nat}
    (whole : LEN = offset + rest.length) : taken LEN offset (tokens rest) = tokens rest := by
  fun_induction tokens rest generalizing offset with
  | case1 => rfl
  | case2 byte rest other induction =>
      rw [List.length_cons] at whole
      rw [taken, if_pos (.inl (by omega)), Token.advance, induction (by omega)]
  | case3 byte sign =>
      rw [List.length_singleton] at whole
      rw [taken, if_pos (.inl (by omega))]
      rfl
  | case4 byte sign first ended =>
      rw [List.length_cons] at whole
      rw [taken, if_pos (.inl (by omega))]
      rfl
  | case5 byte sign first ended =>
      rw [List.length_cons] at whole
      rw [taken, if_pos (.inl (by omega))]
      rfl
  | case6 byte sign first second rest ended both induction =>
      simp only [List.length_cons] at whole
      rw [taken, if_pos (.inl (by omega)), Token.advance, induction (by omega)]
  | case7 byte sign first second rest ended both induction =>
      simp only [List.length_cons] at whole induction
      rw [taken, if_pos (.inl (by omega)), Token.advance, induction (by omega)]
  | case8 byte sign first second rest ended induction =>
      simp only [List.length_cons] at whole
      rw [taken, if_pos (.inl (by omega)), Token.advance, induction (by omega)]

theorem takenOf_of_lt {text : Bytes} (small : text.length < 2 ^ 31) :
    takenOf text = tokens text := by
  apply taken_of_length
  rw [int32_of_lt small]
  omega

/-- The loop without its memory decodes the same tokens. -/
theorem quotedPrintableLoop_eq (platform : Platform) (text : Bytes) {offset before : Nat}
    (ordered : before ≤ offset) :
    quotedPrintableLoop platform text offset before =
      text.slice before offset ++ decoded platform (tokens (text.drop offset)) := by
  have kind : ∀ {offset}, offset < text.length → ∃ token rest,
      tokens (text.drop offset) = token :: rest ∧
        (byteAt platform text offset = 61 ↔ token.isLiteral = false) := by
    intro offset inside
    cases here : tokens (text.drop offset) with
    | nil =>
        have ended := (tokens_eq_nil_iff _).mp here
        rw [List.drop_eq_nil_iff] at ended
        omega
    | cons token rest =>
        refine ⟨token, rest, rfl, ?_⟩
        cases literal : token.isLiteral with
        | true =>
            cases token with
            | literal byte => simp [(literal_of_tokens platform here).1]
            | _ => cases literal
        | false => simp [(sign_of_tokens platform here literal rfl rfl).1]
  fun_induction quotedPrintableLoop platform text offset before with
  | case1 offset before inside other induction =>
      rcases kind inside with ⟨token, rest, here, sign⟩
      cases token with
      | literal byte =>
          rcases literal_of_tokens platform here with ⟨_, own, next, _⟩
          rw [induction (by omega), next, here, decoded_cons, ← List.append_assoc,
            ← Bytes.slice_append ordered (Nat.le_succ _) inside, own]
          rfl
      | _ => exact absurd (sign.mpr rfl) other
  | case2 offset before inside sign three two =>
      rcases kind inside with ⟨token, rest, here, mark⟩
      have other := mark.mp (Decidable.not_not.mp sign)
      rcases sign_of_tokens platform here other rfl rfl with ⟨_, long, value, next, _⟩
      rw [here, decoded_cons, value, ← next, long]
      have three := three (Nat.le_refl _)
      have two := two (Nat.le_refl _)
      rw [slice_self, List.nil_append] at three two
      congr 1
      by_cases ended : lineEnd (byteAt platform text (offset + 1)) = true
      · rw [if_pos ended, if_pos ended, List.nil_append]
        by_cases both : lineEnd (byteAt platform text (offset + 2)) = true
        · rw [if_pos both, if_neg fun single => single.2 both, three]
        · rw [if_neg both, if_pos ⟨ended, both⟩, two]
      · rw [if_neg ended, if_neg ended, if_neg fun single => ended single.1, three]
        rfl
  | case3 offset before ended =>
      have none : text.drop offset = [] := List.drop_eq_nil_iff.mpr (by omega)
      rw [none, Bytes.slice, List.take_of_length_le (by omega)]
      exact (List.append_nil _).symm

/-- What the decoder of the mails returns is what a call leaves in front of its zero. -/
theorem decodeQuotedPrintable_eq_decoded (platform : Platform) {source : Bytes}
    (small : (cString source).length < 2 ^ 31) :
    DecodeQuotedPrintable platform source = decoded platform (takenOf (cString source)) := by
  rw [takenOf_of_lt small, DecodeQuotedPrintable,
    quotedPrintableLoop_eq platform _ (Nat.le_refl 0), slice_self, List.nil_append,
    List.drop_zero]

end MyBookSources.RecvMail.EncodeUtil
