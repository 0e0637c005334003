import MyBookSources.WebSocket.HandshakeHeaders

/-! # The key of a handshake

`generate` reads 24 bytes of the key, whose length is not looked at. So the bytes read are the
key exactly when the last key line of the request has 24 bytes between its blanks.
-/

namespace MyBookSources.WebSocket

def keyLine (line : Bytes) : Bool := (ascii "Sec-WebSocket-Key:").isPrefixOf line

/-- The value of the last line for the key, without the blanks around it. -/
def sentKey (data : Bytes) : Option Bytes := do
  let lines ← StringUtil.Split data (ascii "\r\n")
  let line ← lines.tail.reverse.find? keyLine
  some (StringUtil.stripped (line.drop 18) 32)

theorem findSome?_headerValue {lines : List Bytes}
    (taken : ∀ line ∈ lines, (headerOf line).isSome = true) :
    lines.findSome? (headerValue (ascii "Sec-WebSocket-Key")) =
      (lines.find? keyLine).map fun line => StringUtil.stripped (line.drop 18) 32 := by
  have named : ascii "Sec-WebSocket-Key:" = ascii "Sec-WebSocket-Key" ++ [58] := by decide
  have size : (ascii "Sec-WebSocket-Key").length = 17 := by decide
  induction lines with
  | nil => rfl
  | cons line lines induction =>
      rcases List.forall_mem_cons.mp taken with ⟨first, others⟩
      have value := headerValue_eq (show 58 ∉ ascii "Sec-WebSocket-Key" by decide) first
      rw [List.findSome?_cons, List.find?_cons, value, keyLine, named, size]
      by_cases front : ascii "Sec-WebSocket-Key" ++ [58] <+: line
      · rw [if_pos front, List.isPrefixOf_iff_prefix.mpr front]
        rfl
      · have other : (ascii "Sec-WebSocket-Key" ++ [58]).isPrefixOf line = false := by
          rwa [Bool.eq_false_iff, ne_eq, List.isPrefixOf_iff_prefix]
        rw [if_neg front, other]
        exact induction others

namespace MyWebSocketSession

/-- Where `handleHandshake` gets to `generate`, the 24 bytes that are read are the key, and what
they give is answered. -/
def WholeKey (session : MyWebSocketSession) (data : Bytes) : Prop :=
  ∀ key, session.generateInput data = some key → key.length = 24 ∧
    ∀ platform, ∃ next : MyWebSocketSession, session.handleHandshake platform data =
      some (true, next, [.sent (next.makeUpgradeResponse platform
        (WebSocketHandshake.generate key)), .onConnect])

/-- The key of the request, or the one that an earlier request has left in the map. -/
def KeyFits (session : MyWebSocketSession) (data : Bytes) : Prop :=
  ∃ key, (sentKey data).or (session.httpHeaders (ascii "Sec-WebSocket-Key")) = some key ∧
    key.length = 24

theorem handleHandshake_generateInput (platform : Platform) (session : MyWebSocketSession)
    (data : Bytes) :
    match session.generateInput data with
    | some key => ∃ next : MyWebSocketSession,
        session.handleHandshake platform data = next.answered platform key
    | none => ∀ result, session.handleHandshake platform data = some result →
        result.1 = false ∧ result.2.2 = [] := by
  have refused {other : MyWebSocketSession} {result : Bool × MyWebSocketSession × List SessionEvent}
      (equal : some (false, other, []) = some result) : result.1 = false ∧ result.2.2 = [] := by
    cases equal
    exact ⟨rfl, rfl⟩
  rw [generateInput, handleHandshake]
  rcases StringUtil.Split_some data (show ascii "\r\n" ≠ [] by decide) with ⟨lines, split⟩
  simp only [split, Option.bind_eq_bind, Option.bind_some]
  cases lines with
  | nil => exact fun _ => refused
  | cons requestLine headerLines =>
      dsimp only
      by_cases short : headerLines.length < 2
      · rw [if_pos short, if_pos short]
        exact fun _ => refused
      · rw [if_neg short, if_neg short]
        rcases session.parseHttpPath requestLine with _ | ⟨_ | _, withPath⟩
        · exact fun _ equal => by cases equal
        · exact fun _ => refused
        · simp only [Option.bind_some, Bool.not_true, Bool.false_eq_true, if_false]
          rcases withPath.parseHttpHeaders headerLines with _ | ⟨_ | _, withHeaders⟩
          · exact fun _ equal => by cases equal
          · exact fun _ => refused
          · simp only [Option.bind_some, Bool.not_true, Bool.false_eq_true, if_false]
            rcases checkHttpHeaders_eq withHeaders with ⟨next, checked⟩
            rw [checked platform]
            cases withHeaders.checkedKey with
            | none => exact fun _ => refused
            | some key => exact ⟨next, rfl⟩

theorem generateInput_some {session : MyWebSocketSession} {data key : Bytes}
    (reached : session.generateInput data = some key) :
    (sentKey data).or (session.httpHeaders (ascii "Sec-WebSocket-Key")) = some key := by
  rcases Option.bind_eq_some_iff.mp reached with ⟨lines, split, reached⟩
  rw [sentKey, split, Option.bind_eq_bind, Option.bind_some]
  split at reached
  · cases reached
  · next requestLine headerLines =>
    split at reached
    · cases reached
    · rcases Option.bind_eq_some_iff.mp reached with ⟨⟨pathParsed, withPath⟩, path, reached⟩
      cases pathParsed with
      | false => cases reached
      | true =>
          rcases Option.bind_eq_some_iff.mp reached with ⟨⟨headersParsed, next⟩, headers, reached⟩
          cases headersParsed with
          | false => cases reached
          | true =>
              rcases parseHttpHeaders_iff.mp headers with ⟨taken, rfl⟩
              have stored : headerLines.foldl storeHeader withPath.httpHeaders
                  (ascii "Sec-WebSocket-Key") = some key := checkedKey_some reached
              have inReverse : ∀ line ∈ headerLines.reverse, (headerOf line).isSome = true :=
                fun line member => taken line (List.mem_reverse.mp member)
              have untouched : withPath.httpHeaders = session.httpHeaders :=
                parseHttpPath_httpHeaders path
              rw [foldl_storeHeader_apply, lastValue, findSome?_headerValue inReverse,
                untouched] at stored
              rw [← stored, List.tail_cons]
              cases headerLines.reverse.find? keyLine with
              | none => rfl
              | some line => rfl

/-- Where the handshake gets to `generate`, the key is read as it is exactly if it has 24 bytes. -/
theorem wholeKey_iff {session : MyWebSocketSession} {data : Bytes}
    (reached : (session.generateInput data).isSome = true) :
    session.WholeKey data ↔ session.KeyFits data := by
  rcases Option.isSome_iff_exists.mp reached with ⟨key, input⟩
  have own := generateInput_some input
  constructor
  · intro whole
    exact ⟨key, own, (whole key input).1⟩
  · rintro ⟨sent, sentOwn, size⟩ other inputOther
    rw [own] at sentOwn
    cases sentOwn
    rw [input] at inputOther
    cases inputOther
    refine ⟨size, fun platform => ?_⟩
    have handled := handleHandshake_generateInput platform session data
    rw [input] at handled
    rcases handled with ⟨next, answer⟩
    refine ⟨{ next with updateToWebSocket := true }, ?_⟩
    have front : (key ++ [0]).take 24 = key := by rw [← size, List.take_left]
    rw [answer, answered, if_neg (by omega), front]
    rfl

def requestWithKey (key : Bytes) : Bytes :=
  ([ascii "GET / HTTP/1.1", ascii "Host: a", ascii "Connection: Upgrade",
    ascii "Upgrade: websocket", ascii "Origin: b", ascii "Sec-WebSocket-Key: " ++ key, []]).flatMap
      fun line => line ++ ascii "\r\n"

theorem wholeKey_iff_request :
    create.WholeKey (requestWithKey (ascii "IqcAWodjyPDJuhGgZwkpKg==")) :=
  (wholeKey_iff (by decide +kernel)).mpr
    ⟨ascii "IqcAWodjyPDJuhGgZwkpKg==", by decide +kernel, by decide⟩

/-- Of a key of three bytes more is read than there is. -/
theorem short_key_read_outside :
    create.generateInput (requestWithKey (ascii "abc")) = some (ascii "abc") ∧
      create.handleHandshake .still (requestWithKey (ascii "abc")) = none ∧
      ¬ create.WholeKey (requestWithKey (ascii "abc")) := by
  have input : create.generateInput (requestWithKey (ascii "abc")) = some (ascii "abc") := by
    decide +kernel
  have handled := handleHandshake_generateInput .still create (requestWithKey (ascii "abc"))
  rw [input] at handled
  rcases handled with ⟨next, answer⟩
  refine ⟨input, answer, ?_⟩
  intro whole
  exact absurd (whole _ input).1 (by decide)

end MyWebSocketSession

end MyBookSources.WebSocket
