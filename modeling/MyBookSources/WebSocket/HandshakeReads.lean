import MyBookSources.WebSocket.HandshakeHeaders

/-! # Handshakes that read inside their strings

The loop of `trimRight` counts an unsigned index down with a test that never fails. Where no byte
of the string differs from the trimmed one it goes on with the byte in front of the string, which
is not its own. The values of the header lines come from the network and may be blank.
-/

namespace MyBookSources.WebSocket

theorem stripped_eq_nil_iff (str : Bytes) (trimmed : Byte) :
    StringUtil.stripped str trimmed = [] ↔ ¬ ∃ byte ∈ str, byte ≠ trimmed := by
  constructor
  · intro nothing filled
    exact StringUtil.stripped_ne_nil filled nothing
  · intro blank
    have all : ∀ byte ∈ str, (byte == trimmed) = true := by
      intro byte member
      by_contra other
      exact blank ⟨byte, member, by simpa using other⟩
    rw [StringUtil.stripped, List.dropWhile_eq_nil_iff.mpr all]
    rfl

theorem trim_isSome_iff (str : Bytes) (trimmed : Byte) :
    (StringUtil.trim str trimmed).isSome = true ↔ ∃ byte ∈ str, byte ≠ trimmed := by
  have blank := stripped_eq_nil_iff str trimmed
  rw [StringUtil.trim_eq]
  split
  · next nothing => simpa using blank.mp nothing
  · next something =>
    rw [blank, not_not] at something
    simpa using something

theorem trim_eq_stripped_iff (str : Bytes) (trimmed : Byte) :
    StringUtil.trim str trimmed = some (StringUtil.stripped str trimmed) ↔
      ∃ byte ∈ str, byte ≠ trimmed := by
  rw [← trim_isSome_iff, StringUtil.trim_eq]
  split
  · simp
  · simp

/-- No line up to the first one without two parts has a value of nothing but blanks. -/
def FilledValues : List Bytes → Prop
  | [] => True
  | line :: lines =>
      match StringUtil.Cut line (ascii ":") with
      | _ :: value :: _ => (∃ byte ∈ value, byte ≠ 32) ∧ FilledValues lines
      | _ => True

namespace MyWebSocketSession

theorem parseHttpHeaders_isSome_iff (session : MyWebSocketSession) (lines : List Bytes) :
    (session.parseHttpHeaders lines).isSome = true ↔ FilledValues lines := by
  induction lines generalizing session with
  | nil => simp [parseHttpHeaders, FilledValues]
  | cons line lines induction =>
      rw [parseHttpHeaders, FilledValues]
      rcases StringUtil.Cut line (ascii ":") with _ | ⟨name, _ | ⟨value, others⟩⟩
      · simp
      · simp
      · dsimp only
        rw [← trim_isSome_iff]
        cases StringUtil.trim value 32 with
        | none => simp
        | some trimmed => simp [induction]

/-- The header lines that the loop of `handleHandshake` gets to have values that are not
blank. It gets to them if there are two at least and the request line is accepted. -/
def ReachedValuesFilled (session : MyWebSocketSession) (data : Bytes) : Prop :=
  ∀ requestLine headerLines,
    StringUtil.Split data (ascii "\r\n") = some (requestLine :: headerLines) →
    2 ≤ headerLines.length →
    (∃ next, session.parseHttpPath requestLine = some (true, next)) →
    FilledValues headerLines

/-- A key that gets to `generate` is as long as what is read of it. -/
def ReachedKeyLong (session : MyWebSocketSession) (data : Bytes) : Prop :=
  ∀ key, session.generateInput data = some key → 23 ≤ key.length

theorem checkHttpHeaders_isSome_iff (platform : Platform) (session : MyWebSocketSession) :
    (session.checkHttpHeaders platform).isSome = true ↔
      ∀ key, session.checkedKey = some key → 23 ≤ key.length := by
  rcases session.checkHttpHeaders_eq with ⟨next, checked⟩
  rw [checked]
  cases session.checkedKey with
  | none => simp
  | some key =>
      dsimp only [answered]
      split
      · next short => simpa using short
      · next long => simpa using long

theorem reachedValuesFilled_iff {session : MyWebSocketSession} {data requestLine : Bytes}
    {headerLines : List Bytes}
    (split : StringUtil.Split data (ascii "\r\n") = some (requestLine :: headerLines)) :
    session.ReachedValuesFilled data ↔
      (2 ≤ headerLines.length →
        (∃ next, session.parseHttpPath requestLine = some (true, next)) →
        FilledValues headerLines) := by
  constructor
  · intro all
    exact all requestLine headerLines split
  · intro own first others cut
    rw [split] at cut
    cases cut
    exact own

theorem handleHandshake_isSome_iff (platform : Platform) (session : MyWebSocketSession)
    (data : Bytes) :
    (session.handleHandshake platform data).isSome = true ↔
      session.ReachedValuesFilled data ∧ session.ReachedKeyLong data := by
  rcases StringUtil.Split_some data (show ascii "\r\n" ≠ [] by decide) with ⟨lines, split⟩
  cases lines with
  | nil => simp [ReachedValuesFilled, ReachedKeyLong, handleHandshake, generateInput, split]
  | cons requestLine headerLines =>
      rw [reachedValuesFilled_iff split, ReachedKeyLong, handleHandshake, generateInput, split]
      simp only [Option.bind_eq_bind, Option.bind_some]
      by_cases short : headerLines.length < 2
      · rw [if_pos short, if_pos short]
        constructor
        · intro _
          constructor
          · intro enough _
            omega
          · intro key nothing
            cases nothing
        · intro _
          rfl
      · rw [if_neg short, if_neg short]
        rcases parseHttpPath_some session requestLine with ⟨⟨pathParsed, withPath⟩, path⟩
        rw [path]
        cases pathParsed with
        | false => simp
        | true =>
            have filled := withPath.parseHttpHeaders_isSome_iff headerLines
            have enough : 2 ≤ headerLines.length := by omega
            simp only [Option.bind_some, Bool.not_true, Bool.false_eq_true, if_false, enough,
              Option.some.injEq, Prod.mk.injEq, true_and, exists_eq', true_imp_iff]
            rw [← filled]
            cases withPath.parseHttpHeaders headerLines with
            | none => simp
            | some parsed =>
                rcases parsed with ⟨headersParsed, withHeaders⟩
                cases headersParsed with
                | false => simp
                | true => simpa using withHeaders.checkHttpHeaders_isSome_iff platform

/-- `trim` stays inside the string and gives what it should exactly for strings with a byte that
is not trimmed, and a handshake reads inside its strings exactly if the values that it gets to are
such strings and its key, if it gets to the key, is long enough. -/
theorem trim_and_handleHandshake_iff (platform : Platform) (session : MyWebSocketSession) :
    (∀ (str : Bytes) (trimmed : Byte),
      StringUtil.trim str trimmed = some (StringUtil.stripped str trimmed) ↔
        ∃ byte ∈ str, byte ≠ trimmed) ∧
    ∀ data : Bytes,
      (session.handleHandshake platform data).isSome = true ↔
        session.ReachedValuesFilled data ∧ session.ReachedKeyLong data := by
  constructor
  · exact trim_eq_stripped_iff
  · exact session.handleHandshake_isSome_iff platform

/-- The byte in front of it is read of the empty string, of a blank one, and of the blank header
value of a request. -/
theorem blank_value_read_outside :
    StringUtil.trim [] 32 = none ∧ StringUtil.trim (ascii "   ") 32 = none ∧
    create.handleHandshake .still
      (ascii "GET / HTTP/1.1\r\nHost: a\r\nX:  \r\n\r\n") = none := by
  decide +kernel

end MyWebSocketSession

end MyBookSources.WebSocket
