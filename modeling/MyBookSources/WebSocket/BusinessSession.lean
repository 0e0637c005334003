import MyBookSources.WebSocket.PackageSending
import MyBookSources.WebSocket.ReadCutting

/-! # The echo server

`BusinessSession` greets its client and sends every message back. With the session below it
this is the whole of what the server does with the bytes of one connection.
-/

namespace MyBookSources.WebSocket

/-- `send(data, opcode)`. -/
def MyWebSocketSession.sendAs (platform : Platform) (session : MyWebSocketSession) (data : Bytes)
    (opcode : MyOpCode) : Option Bytes :=
  session.send platform data (UInt8.ofNat opcode.value)

def MyWebSocketSession.onPing (platform : Platform) (session : MyWebSocketSession) :
    Option Bytes :=
  session.sendAs platform [] .pong

namespace BusinessSession

def strWelcomeMsg : Bytes := ascii "Welcome to WebSocket Server, contact: balloonwj@qq.com"

def sendWelcomeMsg (platform : Platform) (session : MyWebSocketSession) : Option Bytes :=
  session.sendAs platform strWelcomeMsg .textFrame

def onConnect (platform : Platform) (session : MyWebSocketSession) : Option Bytes :=
  sendWelcomeMsg platform session

def onMessage (platform : Platform) (session : MyWebSocketSession) (strClientMsg : Bytes) :
    Option Bytes :=
  session.sendAs platform strClientMsg .textFrame

def sends (platform : Platform) (session : MyWebSocketSession) : SessionEvent → List Bytes
  | .sent data => [data]
  | .onConnect => (onConnect platform session).toList
  | .onMessage clientMsg => (onMessage platform session clientMsg).toList
  | .onPing => (session.onPing platform).toList
  | .onPong => []
  | .forceClose => []

/-- The reads of a connection, with what is sent. The events of a read happen behind its last
change of `m_bClientCompressed`. -/
def serve (platform : Platform) (session : MyWebSocketSession) (unread : Bytes) :
    List Bytes → Option (List Bytes × MyWebSocketSession × Bytes)
  | [] => some ([], session, unread)
  | read :: reads => do
      let next ← session.onRead platform (unread ++ read)
      let later ← serve platform next.session next.unread reads
      some (next.events.flatMap (sends platform next.session) ++ later.1, later.2)

/-! ## The frames of the client -/

/-- A message or a control frame that fits into one frame and is not empty. -/
structure Conversational (frame : Rfc6455.Frame) : Prop where
  fin : frame.fin = true
  masked : frame.maskingKey.isSome = true
  nonempty : frame.payload ≠ []
  code : frame.opcode ∈ [MyOpCode.textFrame.value, MyOpCode.binaryFrame.value,
    MyOpCode.ping.value, MyOpCode.pong.value]
  small : frame.encode.length < MAX_WEBSOCKET_CLIENT_PACKAGE_LENGTH

theorem length_nil_lt : ([] : Bytes).length < 2 ^ 63 := by decide

theorem length_strWelcomeMsg : strWelcomeMsg.length < 2 ^ 63 := by decide +kernel

/-- A message comes back as a text, and a ping gets an empty pong. -/
def reply (frame : Rfc6455.Frame) : Option Rfc6455.Frame :=
  match MyOpCode.ofValue frame.opcode with
  | .textFrame | .binaryFrame =>
      some (SendCall.mk MyOpCode.textFrame.value frame.payload frame.short).frame
  | .ping => some (SendCall.mk MyOpCode.pong.value [] length_nil_lt).frame
  | _ => none

def welcome : Rfc6455.Frame :=
  (SendCall.mk MyOpCode.textFrame.value strWelcomeMsg length_strWelcomeMsg).frame

def callback (frame : Rfc6455.Frame) : SessionEvent :=
  match MyOpCode.ofValue frame.opcode with
  | .ping => .onPing
  | .pong => .onPong
  | _ => .onMessage frame.payload

variable {platform : Platform} {session : MyWebSocketSession} {frame : Rfc6455.Frame}

/-- A session behind its handshake, with no compression and no fragments pending. -/
structure Serving (session : MyWebSocketSession) : Prop where
  upgraded : session.updateToWebSocket = true
  uncompressed : session.clientCompressed = false
  nothingPending : session.parsedData = []

theorem Serving.mergePackage (serving : Serving session) (conversational : Conversational frame) :
    session.mergePackage platform frame.fin (.ofValue frame.opcode) frame.payload =
      (true, session, [callback frame]) := by
  have kept : { session with parsedData := [], clientCompressed := false } = session := by
    rw [← serving.nothingPending, ← serving.uncompressed]
  have code := conversational.code
  simp only [List.mem_cons, List.not_mem_nil, or_false] at code
  rw [conversational.fin, MyWebSocketSession.mergePackage, callback, serving.nothingPending]
  rcases code with same | same | same | same <;>
    simp [same, MyWebSocketSession.processPackage, serving.uncompressed, kept]

theorem sendAs_eq_encode (uncompressed : session.clientCompressed = false) (opcode : MyOpCode)
    (data : Bytes) (short : data.length < 2 ^ 63) : session.sendAs platform data opcode =
      some (SendCall.mk opcode.value data short).frame.encode :=
  MyWebSocketSession.send_eq_encode platform uncompressed ⟨opcode.value, data, short⟩

theorem sends_onConnect (uncompressed : session.clientCompressed = false) :
    sends platform session .onConnect = [welcome.encode] := by
  rw [sends, onConnect, sendWelcomeMsg, sendAs_eq_encode uncompressed]
  rfl

theorem Serving.sends_callback (serving : Serving session) (conversational : Conversational frame) :
    sends platform session (callback frame) = (reply frame).toList.map Rfc6455.Frame.encode := by
  have code := conversational.code
  simp only [List.mem_cons, List.not_mem_nil, or_false] at code
  rcases code with same | same | same | same
  · rw [callback, reply, same]
    change (session.sendAs platform frame.payload .textFrame).toList = _
    rw [sendAs_eq_encode serving.uncompressed]
    rfl
  · rw [callback, reply, same]
    change (session.sendAs platform frame.payload .textFrame).toList = _
    rw [sendAs_eq_encode serving.uncompressed]
    rfl
  · rw [callback, reply, same]
    change (session.sendAs platform [] .pong).toList = _
    rw [sendAs_eq_encode serving.uncompressed]
    rfl
  · rw [callback, reply, same]
    rfl

theorem Conversational.span (conversational : Conversational frame) (rest : Bytes) :
    MyWebSocketSession.packageSpan (frame.encode ++ rest) = .takes frame.encode.length := by
  have small : (frame.encode ++ []).length < 2 ^ 31 := by
    rw [List.append_nil]
    exact conversational.small.trans (by decide)
  have alone := MyWebSocketSession.packageSpan_encode frame [] small conversational.masked
    conversational.nonempty
  rw [List.append_nil] at alone
  rw [MyWebSocketSession.packageSpan_append rest (by rw [alone]; simp), alone]

theorem Serving.onRead_whole (serving : Serving session) (platform : Platform)
    (conversational : Conversational frame) (rest : Bytes)
    (limit : (frame.encode ++ rest).length < MAX_WEBSOCKET_CLIENT_PACKAGE_LENGTH) :
    session.onRead platform (frame.encode ++ rest) = some ⟨session, rest, [callback frame]⟩ := by
  have enough := (MyWebSocketSession.packageSpan_takes (conversational.span rest)).1
  rw [MyWebSocketSession.onRead_decodes platform serving.upgraded limit enough,
    MyWebSocketSession.decodePackage_encode frame rest (limit.trans (by decide))
      conversational.nonempty, serving.mergePackage conversational]
  rfl

theorem Serving.onRead_part (serving : Serving session) (platform : Platform) {unread : Bytes}
    {frames : List Rfc6455.Frame}
    (conversational : ∀ frame ∈ frames, Conversational frame)
    (front : unread <+: frames.flatMap Rfc6455.Frame.encode)
    (waits : MyWebSocketSession.packageSpan unread = .waits)
    (limit : unread.length < MAX_WEBSOCKET_CLIENT_PACKAGE_LENGTH) :
    session.onRead platform unread = some ⟨session, unread, []⟩ := by
  rcases MyWebSocketSession.onRead_of_waits platform serving.upgraded limit waits with
    ⟨next, returned, _, same | stuck⟩
  · rw [returned, same]
  · rcases front with ⟨missing, whole⟩
    have still := (stuck.append missing).waits
    rw [whole] at still
    cases frames with
    | nil =>
        have enough := stuck.1
        rw [(List.append_eq_nil_iff.mp whole).1] at enough
        exact absurd enough (by decide)
    | cons frame frames =>
        rw [List.flatMap_cons, (conversational frame (by simp)).span] at still
        cases still

theorem span_cases {unread missing : Bytes} {frames : List Rfc6455.Frame}
    (conversational : ∀ frame ∈ frames, Conversational frame)
    (cut : unread ++ missing = frames.flatMap Rfc6455.Frame.encode) :
    MyWebSocketSession.packageSpan unread = .waits ∨
      ∃ frame others rest, frames = frame :: others ∧ unread = frame.encode ++ rest ∧
        MyWebSocketSession.packageSpan unread = .takes frame.encode.length := by
  by_cases waits : MyWebSocketSession.packageSpan unread = .waits
  · exact .inl waits
  · right
    have whole := MyWebSocketSession.packageSpan_append missing waits
    rw [cut] at whole
    cases frames with
    | nil => exact absurd whole.symm waits
    | cons frame others =>
        rw [List.flatMap_cons] at cut whole
        rw [(conversational frame (by simp)).span] at whole
        have within := (MyWebSocketSession.packageReader .still).span_le whole.symm
        have front : frame.encode <+: unread :=
          List.prefix_of_prefix_length_le (List.prefix_append _ _)
            (cut ▸ List.prefix_append unread missing) within
        rcases front with ⟨rest, arrived⟩
        exact ⟨frame, others, rest, rfl, arrived.symm, whole.symm⟩

theorem Serving.serve (serving : Serving session) {frames : List Rfc6455.Frame}
    (conversational : ∀ frame ∈ frames, Conversational frame) {unread : Bytes}
    {reads : List Bytes} {events : List SessionEvent}
    (cut : unread ++ reads.flatten = frames.flatMap Rfc6455.Frame.encode)
    (within : MyWebSocketSession.WithinLimit platform ⟨session, unread, events⟩ reads) :
    ∃ count, Incremental.itemsTaken MyWebSocketSession.packageSpan unread reads = some count ∧
      count ≤ frames.length ∧
      BusinessSession.serve platform session unread reads =
        some (((frames.take count).filterMap reply).map Rfc6455.Frame.encode, session,
          (frames.drop count).flatMap Rfc6455.Frame.encode) := by
  induction reads generalizing frames unread events with
  | nil =>
      refine ⟨0, rfl, Nat.zero_le _, ?_⟩
      rw [List.flatten_nil, List.append_nil] at cut
      rw [cut]
      rfl
  | cons read reads induction =>
      rcases within with ⟨limit, later⟩
      rw [List.flatten_cons, ← List.append_assoc] at cut
      rw [Incremental.itemsTaken, BusinessSession.serve]
      rcases span_cases conversational cut with waits | ⟨frame, others, rest, rfl, arrived, takes⟩
      · have returned := serving.onRead_part platform conversational ⟨_, cut⟩ waits limit
        rcases induction conversational cut (later _ returned) with
          ⟨count, taken, bound, served⟩
        refine ⟨count, ?_, bound, ?_⟩
        · rw [waits]
          exact taken
        · rw [returned]
          dsimp only [Option.bind_eq_bind, Option.bind_some]
          rw [served]
          rfl
      · dsimp only at limit later
        rw [arrived] at limit later cut takes ⊢
        have first := conversational frame (by simp)
        have returned := serving.onRead_whole platform first rest limit
        rw [List.flatMap_cons, List.append_assoc] at cut
        rcases induction (fun other member => conversational other (.tail _ member))
          (List.append_cancel_left cut) (later _ returned) with ⟨count, taken, bound, served⟩
        refine ⟨count + 1, ?_, Nat.succ_le_succ bound, ?_⟩
        · rw [takes]
          dsimp only
          rw [List.drop_left, taken]
          rfl
        · rw [returned]
          dsimp only [Option.bind_eq_bind, Option.bind_some]
          rw [served, List.flatMap_singleton, serving.sends_callback first, List.take_succ_cons]
          cases answer : reply frame with
          | none => simp [answer]
          | some back => simp [answer]

/-! ## The handshake in front -/

theorem parseHttpPath_pending {session next : MyWebSocketSession} {str : Bytes} {parsed : Bool}
    (returned : session.parseHttpPath str = some (parsed, next)) :
    next.parsedData = session.parsedData := by
  rcases Option.bind_eq_some_iff.mp returned with ⟨tags, _, rest⟩
  split at rest
  · split at rest
    · cases rest
      rfl
    · rcases Option.bind_eq_some_iff.mp rest with ⟨pathAndParams, _, rest⟩
      split at rest
      · cases rest
        rfl
      · cases rest
        rfl
  · cases rest
    rfl

theorem parseHttpHeaders_pending {session next : MyWebSocketSession} {lines : List Bytes}
    {parsed : Bool} (returned : session.parseHttpHeaders lines = some (parsed, next)) :
    next.parsedData = session.parsedData := by
  induction lines generalizing session with
  | nil =>
      cases returned
      rfl
  | cons line lines induction =>
      rw [MyWebSocketSession.parseHttpHeaders] at returned
      split at returned
      · rcases Option.bind_eq_some_iff.mp returned with ⟨trimmed, _, rest⟩
        rw [induction rest]
      · cases returned
        rfl

theorem answerKey_pending {session next : MyWebSocketSession} {answered : Bool}
    {events : List SessionEvent}
    (returned : session.answerKey platform = some (answered, next, events)) :
    next.parsedData = session.parsedData := by
  unfold MyWebSocketSession.answerKey at returned
  split at returned
  · cases returned
    rfl
  · split at returned
    · cases returned
      rfl
    · split at returned
      · cases returned
      · cases returned
        rfl

theorem readExtensions_pending {session next : MyWebSocketSession}
    (returned : session.readUserAgent.readExtensions = some next) :
    next.parsedData = session.parsedData := by
  have userAgent : session.readUserAgent.parsedData = session.parsedData := by
    unfold MyWebSocketSession.readUserAgent
    split <;> rfl
  rw [← userAgent]
  unfold MyWebSocketSession.readExtensions at returned
  split at returned
  · rcases Option.bind_eq_some_iff.mp returned with ⟨extensions, _, rest⟩
    split at rest <;> cases rest <;> rfl
  · cases returned
    rfl

theorem checkHttpHeaders_pending {session next : MyWebSocketSession} {answered : Bool}
    {events : List SessionEvent}
    (returned : session.checkHttpHeaders platform = some (answered, next, events)) :
    next.parsedData = session.parsedData := by
  unfold MyWebSocketSession.checkHttpHeaders at returned
  split at returned
  · cases returned
    rfl
  · split at returned
    · cases returned
      rfl
    · split at returned
      · cases returned
        rfl
      · split at returned
        · cases returned
          rfl
        · rcases Option.bind_eq_some_iff.mp returned with ⟨extended, extensions, rest⟩
          rw [answerKey_pending rest, readExtensions_pending extensions]

theorem handleHandshake_pending {session next : MyWebSocketSession} {data : Bytes}
    {events : List SessionEvent}
    (accepted : session.handleHandshake platform data = some (true, next, events)) :
    next.parsedData = session.parsedData := by
  rcases Option.bind_eq_some_iff.mp accepted with ⟨lines, _, parsing⟩
  split at parsing
  · cases parsing
  · split at parsing
    · cases parsing
    · rcases Option.bind_eq_some_iff.mp parsing with ⟨⟨pathParsed, withPath⟩, path, parsing⟩
      cases pathParsed with
      | false => cases parsing
      | true =>
          rcases Option.bind_eq_some_iff.mp parsing with
            ⟨⟨headersParsed, withHeaders⟩, headers, parsing⟩
          cases headersParsed with
          | false => cases parsing
          | true =>
              rw [checkHttpHeaders_pending parsing, parseHttpHeaders_pending headers,
                parseHttpPath_pending path]

theorem onRead_compressed (upgraded : session.updateToWebSocket = true) {unread : Bytes}
    {progress : MyWebSocketSession.Progress}
    (returned : session.onRead platform unread = some progress) :
    progress.session.clientCompressed = session.clientCompressed := by
  rw [MyWebSocketSession.onRead_upgraded platform upgraded] at returned
  split at returned
  · cases returned
    rfl
  · split at returned
    · cases returned
      rfl
    · rcases Option.map_eq_some_iff.mp returned with ⟨⟨decoded, after⟩, decode, rfl⟩
      rcases MyWebSocketSession.decodePackage_cases decode with
        rfl | ⟨headerSize, bodyLength, _, _, merged⟩
      · rfl
      · rcases session.mergePackage_session platform (MyWebSocketSession.FIN unread)
          (MyWebSocketSession.opcode unread)
          (MyWebSocketSession.payloadData unread headerSize bodyLength) with ⟨pending, kept⟩
        injection merged with _ merged
        rw [merged]
        dsimp only
        rw [kept]

section

variable {next : MyWebSocketSession} {handshake response : Bytes}
  (waiting : session.updateToWebSocket = false)
  (ends : StringUtil.find (ascii "\r\n\r\n") handshake = some (handshake.length - 4))
  (accepted : session.handleHandshake platform handshake =
    some (true, next, [.sent response, .onConnect]))
  (serving : Serving next)

include waiting ends accepted serving

theorem serve_handshake {unread : Bytes} {reads : List Bytes} {events : List SessionEvent}
    {stream : Bytes} (short : unread.length < handshake.length)
    (cut : unread ++ reads.flatten = handshake ++ stream)
    (within : MyWebSocketSession.WithinLimit platform ⟨session, unread, events⟩ reads) :
    ∃ events,
      MyWebSocketSession.WithinLimit platform ⟨next, [], events⟩
        (MyWebSocketSession.dropBytes (handshake.length - unread.length) reads) ∧
      BusinessSession.serve platform session unread reads =
        (BusinessSession.serve platform next []
          (MyWebSocketSession.dropBytes (handshake.length - unread.length) reads)).map
          fun later => (response :: welcome.encode :: later.1, later.2) := by
  induction reads generalizing unread events with
  | nil =>
      have sizes := congrArg List.length cut
      simp only [List.flatten_nil, List.append_nil, List.length_append] at sizes
      omega
  | cons read reads induction =>
      rcases within with ⟨limit, later⟩
      have sum : (unread ++ read).length = unread.length + read.length := List.length_append
      rw [List.flatten_cons, ← List.append_assoc] at cut
      have arrived : unread ++ read <+: handshake ++ stream := by
        rw [← cut]
        exact List.prefix_append _ _
      rw [MyWebSocketSession.dropBytes, BusinessSession.serve]
      rcases Nat.lt_or_ge (unread ++ read).length handshake.length with part | all
      · have front : unread ++ read <+: handshake :=
          List.prefix_of_prefix_length_le arrived (List.prefix_append _ _) (by omega)
        have returned := MyWebSocketSession.onRead_before waiting ends platform limit front part
        rcases induction part cut (later _ returned) with ⟨before, within, served⟩
        have missing : handshake.length - unread.length - read.length =
            handshake.length - (unread ++ read).length := by omega
        rw [if_pos (by omega), missing, returned]
        refine ⟨before, within, ?_⟩
        dsimp only [Option.bind_eq_bind, Option.bind_some]
        rw [served]
        simp
      · have whole : handshake <+: unread ++ read :=
          List.prefix_of_prefix_length_le (List.prefix_append _ _) arrived all
        rcases whole with ⟨behind, equal⟩
        have front : read.drop (handshake.length - unread.length) = behind := by
          have dropped := congrArg (List.drop handshake.length) equal
          rw [List.drop_left, List.drop_append, List.drop_eq_nil_of_le (by omega),
            List.nil_append] at dropped
          exact dropped.symm
        have returned := MyWebSocketSession.onRead_handshake waiting ends accepted (equal ▸ limit)
        rw [equal] at returned
        have sizes := congrArg List.length equal
        rw [List.length_append] at sizes
        dsimp only at limit later
        rw [if_neg (by omega), front, returned]
        refine ⟨events ++ [.sent response, .onConnect], ⟨?_, ?_⟩, ?_⟩
        · change behind.length < _
          omega
        · intro last reading
          have after := later { last with
              events := [.sent response, .onConnect] ++ last.events } (by
            rw [returned]
            exact congrArg (Option.map _) reading)
          simpa using after
        · rw [BusinessSession.serve, List.nil_append]
          cases reading : next.onRead platform behind with
          | none => rfl
          | some last =>
              have uncompressed := onRead_compressed serving.upgraded reading
              rw [serving.uncompressed] at uncompressed
              have greets : [SessionEvent.sent response, .onConnect].flatMap
                  (sends platform last.session) = [response, welcome.encode] := by
                rw [List.flatMap_cons, List.flatMap_singleton, sends_onConnect uncompressed]
                rfl
              dsimp only [Option.map_some, Option.bind_eq_bind, Option.bind_some]
              rw [List.flatMap_append, greets]
              cases BusinessSession.serve platform last.session last.unread reads with
              | none => rfl
              | some later => rfl

end

/-- The client gets the response, then the greeting, and then for every frame that the session
takes, in order, its answer. What is not taken stays unread. -/
theorem frames_answered_in_order {next : MyWebSocketSession} {handshake : Bytes}
    {frames : List Rfc6455.Frame} {reads : List Bytes}
    (acceptable : MyWebSocketSession.Acceptable platform .create handshake next)
    (uncompressed : next.clientCompressed = false)
    (conversational : ∀ frame ∈ frames, Conversational frame)
    (cut : reads.flatten = handshake ++ frames.flatMap Rfc6455.Frame.encode)
    (within : MyWebSocketSession.WithinLimit platform ⟨.create, [], []⟩ reads) :
    ∃ response packages count,
      MyWebSocketSession.create.handleHandshake platform handshake =
        some (true, next, [.sent response, .onConnect]) ∧
      MyWebSocketSession.packagesTaken handshake reads = some count ∧ count ≤ frames.length ∧
      BusinessSession.serve platform .create [] reads =
        some (response :: packages, next, (frames.drop count).flatMap Rfc6455.Frame.encode) ∧
      Rfc6455.decodeAll packages.flatten =
        some (welcome :: (frames.take count).filterMap reply) := by
  rcases acceptable.accepted with ⟨events, accepted⟩
  rcases MyWebSocketSession.handleHandshake_accepted accepted with ⟨upgraded, response, rfl⟩
  have serving : Serving next := ⟨upgraded, uncompressed, handleHandshake_pending accepted⟩
  have whole := StringUtil.find_le acceptable.ends
  rw [MyWebSocketSession.length_blankLine] at whole
  have front : ([] : Bytes).length < handshake.length := by
    rw [List.length_nil]
    omega
  rcases serve_handshake acceptable.waiting acceptable.ends accepted serving front cut within with
    ⟨events, within, greeted⟩
  rw [List.length_nil, Nat.sub_zero] at within greeted
  have behind : [] ++ (MyWebSocketSession.dropBytes handshake.length reads).flatten =
      frames.flatMap Rfc6455.Frame.encode := by
    rw [MyWebSocketSession.flatten_dropBytes, cut, List.drop_left]
    rfl
  rcases serving.serve conversational behind within with ⟨count, taken, bound, served⟩
  have answers := Rfc6455.decodeAll_encode (welcome :: (frames.take count).filterMap reply)
  rw [List.flatMap_def, List.map_cons] at answers
  rw [served] at greeted
  exact ⟨response, _, count, accepted, taken, bound, greeted, answers⟩

/-- Two messages, each in a read of its own. -/
theorem frames_answered_in_order_two :
    ∃ next response packages,
      serve .still .create [] [MyWebSocketSession.sampleRequest,
          (MyWebSocketSession.sampleFrame 1).encode, (MyWebSocketSession.sampleFrame 2).encode] =
        some (response :: packages, next, []) ∧
      Rfc6455.decodeAll packages.flatten =
        some (welcome :: [MyWebSocketSession.sampleFrame 1,
          MyWebSocketSession.sampleFrame 2].filterMap reply) := by
  have handled : (MyWebSocketSession.create.handleHandshake .still
      MyWebSocketSession.sampleRequest).map (fun result => result.2.1.clientCompressed) =
        some false := by
    decide +kernel
  rcases MyWebSocketSession.sampleRequest_acceptable with ⟨next, acceptable⟩
  rcases acceptable.accepted with ⟨events, accepted⟩
  rw [accepted] at handled
  have conversational : ∀ frame ∈ [MyWebSocketSession.sampleFrame 1,
      MyWebSocketSession.sampleFrame 2], Conversational frame := by
    simp only [List.forall_mem_cons]
    exact ⟨⟨rfl, rfl, by decide, by decide, by decide⟩,
      ⟨rfl, rfl, by decide, by decide, by decide⟩, by simp⟩
  have cut : [MyWebSocketSession.sampleRequest, (MyWebSocketSession.sampleFrame 1).encode,
      (MyWebSocketSession.sampleFrame 2).encode].flatten = MyWebSocketSession.sampleRequest ++
        ((MyWebSocketSession.sampleFrame 1).encode ++
          (MyWebSocketSession.sampleFrame 2).encode) := by simp
  have within := MyWebSocketSession.withinLimit_sample cut
  rw [← List.flatMap_singleton Rfc6455.Frame.encode (MyWebSocketSession.sampleFrame 2),
    ← List.flatMap_cons] at cut
  rcases frames_answered_in_order acceptable (Option.some.inj handled) conversational cut within
    with ⟨response, packages, count, _, taken, _, served, answers⟩
  have all : count = 2 := by
    have counted : MyWebSocketSession.packagesTaken MyWebSocketSession.sampleRequest
        [MyWebSocketSession.sampleRequest, (MyWebSocketSession.sampleFrame 1).encode,
          (MyWebSocketSession.sampleFrame 2).encode] = some 2 := by
      decide +kernel
    exact Option.some.inj (taken.symm.trans counted)
  rw [all] at served answers
  exact ⟨next, response, packages, served, answers⟩

end BusinessSession

end MyBookSources.WebSocket
