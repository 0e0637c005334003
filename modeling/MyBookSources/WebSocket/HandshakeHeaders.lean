import MyBookSources.Utils.StringUtilSpec
import MyBookSources.WebSocket.MyWebSocketSession

/-! # The headers of a handshake

What the header lines of a request put into the map, and the value that `handleHandshake`
passes to `generate`.
-/

namespace MyBookSources.WebSocket

/-! ## One line -/

def headerOf (line : Bytes) : Option (Bytes × Bytes) :=
  match StringUtil.Cut line (ascii ":") with
  | name :: value :: _ => (StringUtil.trim value 32).map fun trimmed => (name, trimmed)
  | _ => none

def storeHeader (headers : Bytes → Option Bytes) (line : Bytes) : Bytes → Option Bytes :=
  match headerOf line with
  | some (name, value) => Function.update headers name value
  | none => headers

def headerValue (name line : Bytes) : Option Bytes :=
  match headerOf line with
  | some (other, value) => if other = name then some value else none
  | none => none

def lastValue (name : Bytes) (lines : List Bytes) : Option Bytes :=
  lines.reverse.findSome? (headerValue name)

theorem storeHeader_apply (headers : Bytes → Option Bytes) (line name : Bytes) :
    storeHeader headers line name = (headerValue name line).or (headers name) := by
  rw [storeHeader, headerValue]
  cases headerOf line with
  | none => rfl
  | some header =>
      by_cases same : header.1 = name
      · simp [same]
      · simp [same, Function.update_of_ne (Ne.symm same)]

theorem foldl_storeHeader_apply (headers : Bytes → Option Bytes) (lines : List Bytes)
    (name : Bytes) :
    lines.foldl storeHeader headers name = (lastValue name lines).or (headers name) := by
  induction lines generalizing headers with
  | nil => rfl
  | cons line lines induction =>
      rw [List.foldl_cons, induction, storeHeader_apply, ← Option.or_assoc]
      simp only [lastValue, List.reverse_cons, List.findSome?_append, List.findSome?_singleton]

theorem ascii_colon : ascii ":" = [58] := by decide

theorem headerOf_named {name value : Bytes} (some_byte : name ≠ []) (clean : 58 ∉ name)
    (filled : value ≠ []) :
    headerOf (name ++ 58 :: value) =
      (StringUtil.trim value 32).map fun trimmed => (name, trimmed) := by
  rw [headerOf, ascii_colon, StringUtil.Cut_append_cons clean]
  simp [some_byte, filled]

theorem headerOf_some {line : Bytes} {header : Bytes × Bytes}
    (taken : headerOf line = some header) :
    ∃ value, line = header.1 ++ 58 :: value ∧ 58 ∉ header.1 ∧ header.1 ≠ [] ∧
      header.2 = StringUtil.stripped value 32 := by
  by_cases colon : 58 ∈ line
  · rcases List.eq_append_cons_of_mem colon with ⟨name, value, rfl, clean⟩
    rw [headerOf, ascii_colon, StringUtil.Cut_append_cons clean] at taken
    cases name with
    | nil =>
        cases value with
        | nil => cases taken
        | cons byte value => cases taken
    | cons first name =>
        cases value with
        | nil => cases taken
        | cons byte value =>
            rcases Option.map_eq_some_iff.mp taken with ⟨trimmed, trim, rfl⟩
            rw [StringUtil.trim_eq] at trim
            split at trim
            · cases trim
            · cases trim
              exact ⟨byte :: value, rfl, clean, List.cons_ne_nil _ _, rfl⟩
  · have absent : StringUtil.find [58] line = none := by
      rw [StringUtil.find_eq_none_iff]
      exact fun within => colon (within.subset List.mem_cons_self)
    rw [headerOf, ascii_colon, StringUtil.Cut, absent] at taken
    split at taken
    · next cut => split at cut <;> cases cut
    · cases taken

theorem front_unique {name other value rest : Bytes} (clean : 58 ∉ name) (cleanOther : 58 ∉ other)
    (equal : name ++ 58 :: value = other ++ 58 :: rest) : name = other := by
  have front {text : Bytes} (clean : 58 ∉ text) (behind : Bytes) :
      (text ++ 58 :: behind).takeWhile (· != 58) = text := by
    rw [List.takeWhile_append_of_pos]
    · simp
    · intro byte member
      simpa using ne_of_mem_of_not_mem member clean
  rw [← front clean value, equal, front cleanOther]

theorem headerValue_eq {name line : Bytes} (clean : 58 ∉ name)
    (taken : (headerOf line).isSome = true) :
    headerValue name line =
      if name ++ [58] <+: line then some (StringUtil.stripped (line.drop (name.length + 1)) 32)
      else none := by
  rcases Option.isSome_iff_exists.mp taken with ⟨header, header_eq⟩
  rcases headerOf_some header_eq with ⟨value, rfl, own, _, stripped⟩
  rw [headerValue, header_eq]
  by_cases same : header.1 = name
  · have front : name ++ [58] <+: header.1 ++ 58 :: value := by
      rw [same]
      exact ⟨value, by simp⟩
    have behind : (name ++ 58 :: value).drop (name.length + 1) = value := by
      rw [List.drop_append, List.drop_eq_nil_of_le (by omega)]
      simp
    rw [if_pos front, same, behind, ← stripped]
    simp [same]
  · have other : ¬ name ++ [58] <+: header.1 ++ 58 :: value := by
      rintro ⟨rest, equal⟩
      rw [List.append_assoc, List.singleton_append] at equal
      exact same (front_unique own clean equal.symm)
    rw [if_neg other]
    simp [same]

/-! ## All lines -/

namespace MyWebSocketSession

theorem parseHttpHeaders_cons {session next : MyWebSocketSession} {line : Bytes}
    {lines : List Bytes} :
    session.parseHttpHeaders (line :: lines) = some (true, next) ↔
      ∃ header, headerOf line = some header ∧
        MyWebSocketSession.parseHttpHeaders { session with
          httpHeaders := Function.update session.httpHeaders header.1 header.2 } lines =
            some (true, next) := by
  rw [parseHttpHeaders, headerOf]
  rcases StringUtil.Cut line (ascii ":") with _ | ⟨name, _ | ⟨value, others⟩⟩
  · simp
  · simp
  · simp [Option.bind_eq_some_iff]

/-- The lines are accepted when each has two parts, and then they are in the map. -/
theorem parseHttpHeaders_iff {session next : MyWebSocketSession} {lines : List Bytes} :
    session.parseHttpHeaders lines = some (true, next) ↔
      (∀ line ∈ lines, (headerOf line).isSome = true) ∧
        next = { session with httpHeaders := lines.foldl storeHeader session.httpHeaders } := by
  induction lines generalizing session with
  | nil =>
      simp only [parseHttpHeaders, Option.some.injEq, Prod.mk.injEq, true_and]
      constructor
      · rintro rfl
        exact ⟨by simp, rfl⟩
      · rintro ⟨_, rfl⟩
        rfl
  | cons line lines induction =>
      rw [parseHttpHeaders_cons, List.forall_mem_cons, List.foldl_cons, storeHeader]
      cases headerOf line with
      | none => simp
      | some header => simp [induction]

theorem parseHttpPath_some (session : MyWebSocketSession) (str : Bytes) :
    ∃ result, session.parseHttpPath str = some result := by
  rcases StringUtil.Split_some str (show ascii " " ≠ [] by decide) with ⟨vecTags, tags⟩
  rw [parseHttpPath, tags]
  dsimp only [Option.bind_eq_bind, Option.bind_some]
  split
  · next method target version =>
      split
      · exact ⟨_, rfl⟩
      · rcases StringUtil.Split_some target (show ascii "?" ≠ [] by decide) with ⟨parts, split⟩
        rw [split]
        dsimp only [Option.bind_some]
        split
        · exact ⟨_, rfl⟩
        · exact ⟨_, rfl⟩
  · exact ⟨_, rfl⟩

theorem parseHttpPath_httpHeaders {session : MyWebSocketSession} {str : Bytes}
    {result : Bool × MyWebSocketSession} (parsed : session.parseHttpPath str = some result) :
    result.2.httpHeaders = session.httpHeaders := by
  rcases Option.bind_eq_some_iff.mp parsed with ⟨vecTags, _, tags⟩
  split at tags
  · split at tags
    · cases tags
      rfl
    · rcases Option.bind_eq_some_iff.mp tags with ⟨vecPathAndParams, _, parts⟩
      split at parts
      · cases parts
        rfl
      · cases parts
        rfl
  · cases tags
    rfl

theorem readExtensions_some (session : MyWebSocketSession) :
    ∃ next, session.readExtensions = some next := by
  rw [readExtensions]
  split
  · next value _ =>
      rcases StringUtil.Split_some value (show ascii ";" ≠ [] by decide) with ⟨parts, split⟩
      rw [split]
      exact ⟨_, rfl⟩
  · exact ⟨_, rfl⟩

theorem readUserAgent_httpHeaders (session : MyWebSocketSession) :
    session.readUserAgent.httpHeaders = session.httpHeaders := by
  rw [readUserAgent]
  split
  · rfl
  · rfl

theorem readExtensions_httpHeaders {session next : MyWebSocketSession}
    (read : session.readExtensions = some next) : next.httpHeaders = session.httpHeaders := by
  rw [readExtensions] at read
  split at read
  · rcases Option.bind_eq_some_iff.mp read with ⟨vecExtensions, _, equal⟩
    cases equal
    split
    · rfl
    · rfl
  · cases read
    rfl

/-! ## The key -/

/-- The value in the map, where all tests come out well up to the one of the key. -/
def checkedKey (session : MyWebSocketSession) : Option Bytes :=
  if session.httpHeaders (ascii "Connection") ≠ some (ascii "Upgrade") then none
  else if session.httpHeaders (ascii "Upgrade") ≠ some (ascii "websocket") then none
  else if (session.httpHeaders (ascii "Host")).getD [] = [] then none
  else if (session.httpHeaders (ascii "Origin")).getD [] = [] then none
  else
    match session.httpHeaders (ascii "Sec-WebSocket-Key") with
    | none => none
    | some key => if key.isEmpty then none else some key

theorem checkedKey_some {session : MyWebSocketSession} {key : Bytes}
    (checked : session.checkedKey = some key) :
    session.httpHeaders (ascii "Sec-WebSocket-Key") = some key := by
  rw [checkedKey] at checked
  split at checked
  · cases checked
  · split at checked
    · cases checked
    · split at checked
      · cases checked
      · split at checked
        · cases checked
        · split at checked
          · cases checked
          · next stored =>
            split at checked
            · cases checked
            · rw [← checked, stored]

/-- What `handleHandshake` passes to `generate`, if it gets there. -/
def generateInput (session : MyWebSocketSession) (data : Bytes) : Option Bytes := do
  let vecHttpHeaders ← StringUtil.Split data (ascii "\r\n")
  match vecHttpHeaders with
  | [] => none
  | requestLine :: headerLines =>
      if headerLines.length < 2 then none
      else do
        let (pathParsed, session) ← session.parseHttpPath requestLine
        if !pathParsed then none
        else do
          let (headersParsed, session) ← session.parseHttpHeaders headerLines
          if !headersParsed then none else session.checkedKey

/-- The answer to a handshake with a key, of which the first 24 bytes are read. -/
def answered (platform : Platform) (session : MyWebSocketSession) (key : Bytes) :
    Option (Bool × MyWebSocketSession × List SessionEvent) :=
  if key.length < 23 then none
  else some (true, { session with updateToWebSocket := true },
    [.sent (session.makeUpgradeResponse platform
      (WebSocketHandshake.generate ((key ++ [0]).take 24))), .onConnect])

theorem checkHttpHeaders_eq (session : MyWebSocketSession) :
    ∃ next : MyWebSocketSession, ∀ platform, session.checkHttpHeaders platform =
      match session.checkedKey with
      | none => some (false, next, [])
      | some key => next.answered platform key := by
  simp only [checkHttpHeaders, checkedKey]
  split
  · exact ⟨session, fun _ => rfl⟩
  · split
    · exact ⟨session, fun _ => rfl⟩
    · split
      · exact ⟨session, fun _ => rfl⟩
      · split
        · exact ⟨session, fun _ => rfl⟩
        · rcases readExtensions_some session.readUserAgent with ⟨next, read⟩
          refine ⟨next, fun platform => ?_⟩
          have headers := (readExtensions_httpHeaders read).trans session.readUserAgent_httpHeaders
          rw [read, Option.bind_eq_bind, Option.bind_some, answerKey, ← headers]
          cases next.httpHeaders (ascii "Sec-WebSocket-Key") with
          | none => rfl
          | some key =>
              dsimp only
              split
              · rfl
              · rfl

end MyWebSocketSession

end MyBookSources.WebSocket
