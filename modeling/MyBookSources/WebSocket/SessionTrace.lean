import MyBookSources.WebSocket.MyWebSocketSession

/-! # The record of a session

What a session does is recorded in the order in which it happens: the values of
`m_bUpdateToWebSocket` that `onRead` reads, the assignment to it, the calls of
`decodePackage` and the events. A read outside a string finds some bytes there, and the
record goes on.
-/

namespace MyBookSources.WebSocket

/-- One entry of a record. What an application sends is none of the session's own. -/
inductive TraceEntry
  | test (updateToWebSocket : Bool)
  | update
  | decodePackage
  | event (event : SessionEvent)
  | application (data : Bytes)
  deriving DecidableEq

/-- What the reads outside a string come to: the end of `trim` on a value of blanks, and
the bytes behind a key that `generate` reads. -/
structure Outside where
  trimmed : Bytes → Bytes
  behind : Bytes → Bytes

/-- A record, and the session with its unread bytes where the source gets to the end. -/
structure Traced where
  trace : List TraceEntry
  last : Option (MyWebSocketSession × Bytes)

namespace MyWebSocketSession

/-! ## Recording the handshake -/

def parseHttpHeadersTraced (outside : Outside) (session : MyWebSocketSession) :
    List Bytes → Bool × MyWebSocketSession
  | [] => (true, session)
  | line :: lines =>
      match StringUtil.Cut line (ascii ":") with
      | name :: value :: _ =>
          let trimmed := (StringUtil.trim value 32).getD (outside.trimmed value)
          parseHttpHeadersTraced outside
            { session with httpHeaders := Function.update session.httpHeaders name trimmed } lines
      | _ => (false, session)

def answerKeyTraced (platform : Platform) (outside : Outside) (session : MyWebSocketSession) :
    Bool × MyWebSocketSession × List TraceEntry :=
  match session.httpHeaders (ascii "Sec-WebSocket-Key") with
  | none => (false, session, [])
  | some key =>
      if key.isEmpty then (false, session, [])
      else
        let accept := WebSocketHandshake.generate ((key ++ [0] ++ outside.behind key).take 24)
        (true, { session with updateToWebSocket := true },
          [.event (.sent (session.makeUpgradeResponse platform accept)), .update,
            .event .onConnect])

def checkHttpHeadersTraced (platform : Platform) (outside : Outside)
    (session : MyWebSocketSession) : Option (Bool × MyWebSocketSession × List TraceEntry) :=
  if session.httpHeaders (ascii "Connection") ≠ some (ascii "Upgrade") then
    some (false, session, [])
  else if session.httpHeaders (ascii "Upgrade") ≠ some (ascii "websocket") then
    some (false, session, [])
  else if (session.httpHeaders (ascii "Host")).getD [] = [] then some (false, session, [])
  else if (session.httpHeaders (ascii "Origin")).getD [] = [] then some (false, session, [])
  else do
    let session ← session.readUserAgent.readExtensions
    some (session.answerKeyTraced platform outside)

def handleHandshakeTraced (platform : Platform) (outside : Outside)
    (session : MyWebSocketSession) (data : Bytes) :
    Option (Bool × MyWebSocketSession × List TraceEntry) := do
  let vecHttpHeaders ← StringUtil.Split data (ascii "\r\n")
  match vecHttpHeaders with
  | [] => some (false, session, [])
  | requestLine :: headerLines =>
      if headerLines.length < 2 then some (false, session, [])
      else do
        let (pathParsed, session) ← session.parseHttpPath requestLine
        if !pathParsed then some (false, session, [])
        else
          let (headersParsed, session) := session.parseHttpHeadersTraced outside headerLines
          if !headersParsed then some (false, session, [])
          else session.checkHttpHeadersTraced platform outside

/-! ## Recording the reads -/

def onReadLoopTraced (platform : Platform) (outside : Outside) (session : MyWebSocketSession)
    (unread : Bytes) : Nat → Traced
  | 0 => ⟨[], none⟩
  | fuel + 1 =>
      if MAX_WEBSOCKET_CLIENT_PACKAGE_LENGTH ≤ unread.length then
        ⟨[.event .forceClose], some (session, unread)⟩
      else if session.updateToWebSocket = false then
        match StringUtil.find (ascii "\r\n\r\n") unread with
        | none =>
            if unread.length < MAX_WEBSOCKET_CLIENT_PACKAGE_LENGTH then
              ⟨[.test session.updateToWebSocket], some (session, unread)⟩
            else ⟨[.test session.updateToWebSocket, .event .forceClose], some (session, unread)⟩
        | some pos =>
            match session.handleHandshakeTraced platform outside (unread.take (pos + 4)) with
            | none => ⟨[.test session.updateToWebSocket], none⟩
            | some (false, next, entries) =>
                ⟨.test session.updateToWebSocket :: entries ++ [.event .forceClose],
                  some (next, unread.drop (pos + 4))⟩
            | some (true, next, entries) =>
                let later := next.onReadLoopTraced platform outside (unread.drop (pos + 4)) fuel
                ⟨.test session.updateToWebSocket :: entries ++ later.trace, later.last⟩
      else if unread.length < MIN_WEBSOCKET_PACKAGE_HEADER_LENGTH then
        ⟨[.test session.updateToWebSocket], some (session, unread)⟩
      else
        match session.decodePackage platform unread with
        | none => ⟨[.test session.updateToWebSocket, .decodePackage], none⟩
        | some (decoded, progress) =>
            ⟨.test session.updateToWebSocket :: .decodePackage ::
                (progress.events ++ if decoded then [] else [SessionEvent.forceClose]).map .event,
              some (progress.session, progress.unread)⟩

def onReadTraced (platform : Platform) (outside : Outside) (session : MyWebSocketSession)
    (unread : Bytes) : Traced :=
  session.onReadLoopTraced platform outside unread 2

def readAllTraced (platform : Platform) (outside : Outside) (session : MyWebSocketSession)
    (unread : Bytes) : List Bytes → Traced
  | [] => ⟨[], some (session, unread)⟩
  | read :: reads =>
      let first := session.onReadTraced platform outside (unread ++ read)
      match first.last with
      | none => first
      | some (next, unread) =>
          let later := next.readAllTraced platform outside unread reads
          ⟨first.trace ++ later.trace, later.last⟩

/-! ## The record follows the session -/

def happened (trace : List TraceEntry) : List SessionEvent :=
  trace.filterMap fun entry =>
    match entry with
    | .event event => some event
    | _ => none

@[simp] theorem happened_append (first second : List TraceEntry) :
    happened (first ++ second) = happened first ++ happened second :=
  List.filterMap_append

@[simp] theorem happened_map_event (events : List SessionEvent) :
    happened (events.map .event) = events := by
  induction events with
  | nil => rfl
  | cons event events induction => exact congrArg (event :: ·) induction

def eventsOnly (result : Bool × MyWebSocketSession × List TraceEntry) :
    Bool × MyWebSocketSession × List SessionEvent :=
  (result.1, result.2.1, happened result.2.2)

section

variable {platform : Platform} {session : MyWebSocketSession} {unread : Bytes}
  (outside : Outside)

theorem parseHttpHeaders_traced {lines : List Bytes} {result : Bool × MyWebSocketSession}
    (parsed : session.parseHttpHeaders lines = some result) :
    session.parseHttpHeadersTraced outside lines = result := by
  induction lines generalizing session with
  | nil =>
      cases parsed
      rfl
  | cons line lines induction =>
      rw [parseHttpHeaders] at parsed
      rw [parseHttpHeadersTraced]
      cases cut : StringUtil.Cut line (ascii ":") with
      | nil =>
          rw [cut] at parsed
          cases parsed
          rfl
      | cons name rest =>
          rw [cut] at parsed
          cases rest with
          | nil =>
              cases parsed
              rfl
          | cons value others =>
              dsimp only at parsed ⊢
              cases trimmed : StringUtil.trim value 32 with
              | none =>
                  rw [trimmed] at parsed
                  cases parsed
              | some text =>
                  rw [trimmed] at parsed
                  exact induction parsed

theorem answerKey_traced {result : Bool × MyWebSocketSession × List SessionEvent}
    (answered : session.answerKey platform = some result) :
    eventsOnly (session.answerKeyTraced platform outside) = result := by
  rw [answerKey] at answered
  rw [answerKeyTraced]
  cases present : session.httpHeaders (ascii "Sec-WebSocket-Key") with
  | none =>
      rw [present] at answered
      cases answered
      rfl
  | some key =>
      rw [present] at answered
      dsimp only at answered ⊢
      split at answered
      · next empty =>
          cases answered
          rw [if_pos empty]
          rfl
      · next nonempty =>
          split at answered
          · cases answered
          · next long =>
              have enough : 24 ≤ (key ++ [0]).length := by
                rw [List.length_append, List.length_singleton]
                omega
              cases answered
              rw [if_neg nonempty, List.take_append_of_le_length enough]
              rfl

theorem checkHttpHeaders_traced {result : Bool × MyWebSocketSession × List SessionEvent}
    (checked : session.checkHttpHeaders platform = some result) :
    (session.checkHttpHeadersTraced platform outside).map eventsOnly = some result := by
  rw [checkHttpHeaders] at checked
  rw [checkHttpHeadersTraced]
  split at checked
  · next refused =>
      cases checked
      rw [if_pos refused]
      rfl
  · next connection =>
      rw [if_neg connection]
      split at checked
      · next refused =>
          cases checked
          rw [if_pos refused]
          rfl
      · next upgrade =>
          rw [if_neg upgrade]
          split at checked
          · next refused =>
              cases checked
              rw [if_pos refused]
              rfl
          · next host =>
              rw [if_neg host]
              split at checked
              · next refused =>
                  cases checked
                  rw [if_pos refused]
                  rfl
              · next origin =>
                  rw [if_neg origin]
                  cases extended : session.readUserAgent.readExtensions with
                  | none =>
                      rw [extended] at checked
                      cases checked
                  | some next =>
                      rw [extended] at checked
                      exact congrArg some (answerKey_traced outside checked)

theorem handleHandshake_traced {data : Bytes}
    {result : Bool × MyWebSocketSession × List SessionEvent}
    (handled : session.handleHandshake platform data = some result) :
    (session.handleHandshakeTraced platform outside data).map eventsOnly = some result := by
  rw [handleHandshake] at handled
  rw [handleHandshakeTraced]
  cases lines : StringUtil.Split data (ascii "\r\n") with
  | none =>
      rw [lines] at handled
      cases handled
  | some vecHttpHeaders =>
      rw [lines] at handled
      cases vecHttpHeaders with
      | nil =>
          cases handled
          rfl
      | cons requestLine headerLines =>
          dsimp only [Option.bind_eq_bind, Option.bind_some] at handled ⊢
          split at handled
          · next short =>
              cases handled
              rw [if_pos short]
              rfl
          · next long =>
              rw [if_neg long]
              cases path : session.parseHttpPath requestLine with
              | none =>
                  rw [path] at handled
                  cases handled
              | some parsed =>
                  rw [path] at handled
                  dsimp only [Option.bind_some] at handled ⊢
                  cases accepted : parsed.1 with
                  | false =>
                      rw [accepted] at handled
                      cases handled
                      rfl
                  | true =>
                      rw [accepted] at handled
                      cases headers : parsed.2.parseHttpHeaders headerLines with
                      | none =>
                          rw [headers] at handled
                          cases handled
                      | some header =>
                          rw [headers] at handled
                          rw [parseHttpHeaders_traced outside headers]
                          dsimp only [Option.bind_some] at handled ⊢
                          cases complete : header.1 with
                          | false =>
                              rw [complete] at handled
                              cases handled
                              rfl
                          | true =>
                              rw [complete] at handled
                              exact checkHttpHeaders_traced outside handled

theorem onReadLoop_traced {fuel : Nat} {progress : Progress}
    (returned : session.onReadLoop platform unread fuel = some progress) :
    (session.onReadLoopTraced platform outside unread fuel).last =
        some (progress.session, progress.unread) ∧
      happened (session.onReadLoopTraced platform outside unread fuel).trace =
        progress.events := by
  induction fuel generalizing session unread progress with
  | zero => cases returned
  | succ fuel induction =>
      rw [onReadLoop] at returned
      rw [onReadLoopTraced]
      split at returned
      · next full =>
          cases returned
          rw [if_pos full]
          exact ⟨rfl, rfl⟩
      · next room =>
          rw [if_neg room]
          split at returned
          · next waiting =>
              rw [if_pos waiting]
              cases found : StringUtil.find (ascii "\r\n\r\n") unread with
              | none =>
                  rw [found] at returned
                  dsimp only at returned ⊢
                  rw [if_pos (by omega)] at returned ⊢
                  cases returned
                  exact ⟨rfl, rfl⟩
              | some pos =>
                  rw [found] at returned
                  dsimp only at returned ⊢
                  cases handled : session.handleHandshake platform (unread.take (pos + 4)) with
                  | none =>
                      rw [handled] at returned
                      cases returned
                  | some result =>
                      rw [handled] at returned
                      have traced := handleHandshake_traced outside handled
                      rcases Option.map_eq_some_iff.mp traced with
                        ⟨⟨decision, next, entries⟩, recorded, rfl⟩
                      rw [recorded]
                      cases decision with
                      | false =>
                          cases returned
                          constructor
                          · rfl
                          · exact happened_append entries [.event .forceClose]
                      | true =>
                          rcases Option.map_eq_some_iff.mp returned with ⟨later, rest, rfl⟩
                          have follows := induction rest
                          constructor
                          · exact follows.1
                          · exact (happened_append entries _).trans
                              (congrArg (happened entries ++ ·) follows.2)
          · next upgraded =>
              rw [if_neg upgraded]
              split at returned
              · next short =>
                  cases returned
                  rw [if_pos short]
                  exact ⟨rfl, rfl⟩
              · next enough =>
                  rw [if_neg enough]
                  cases decoded : session.decodePackage platform unread with
                  | none =>
                      rw [decoded] at returned
                      cases returned
                  | some result =>
                      rw [decoded] at returned
                      cases result with
                      | mk taken later =>
                          cases taken with
                          | false =>
                              cases returned
                              exact ⟨rfl, happened_map_event _⟩
                          | true =>
                              cases returned
                              constructor
                              · rfl
                              · exact (happened_map_event _).trans (List.append_nil _)

/-- The record of a connection holds what the session does on it. -/
theorem readAll_traced {progress last : Progress} {reads : List Bytes}
    (returned : readAll platform progress reads = some last) :
    (progress.session.readAllTraced platform outside progress.unread reads).last =
        some (last.session, last.unread) ∧
      progress.events ++
          happened (progress.session.readAllTraced platform outside progress.unread reads).trace =
        last.events := by
  induction reads generalizing progress with
  | nil =>
      cases returned
      exact ⟨rfl, List.append_nil _⟩
  | cons read reads induction =>
      rcases Option.bind_eq_some_iff.mp returned with ⟨next, reading, rest⟩
      have first := onReadLoop_traced outside reading
      have later := induction rest
      rw [readAllTraced, onReadTraced]
      dsimp only
      rw [first.1]
      constructor
      · exact later.1
      · dsimp only
        rw [happened_append, first.2, ← List.append_assoc]
        exact later.2

end

end MyWebSocketSession

end MyBookSources.WebSocket
