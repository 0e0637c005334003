import MyBookSources.WebSocket.PackageReader

/-! # Cutting the stream into reads

A package that arrives together with the one in front of it waits for the next read. So
two ways of cutting a client's stream lead to the same callbacks and the same unread
bytes exactly when they let the session take equally many packages.
-/

namespace MyBookSources.WebSocket

/-- The same platform when its clock shows `now`. -/
def Platform.at (platform : Platform) (now : Bytes) : Platform := { platform with now := now }

namespace MyWebSocketSession

/-! ## The clock -/

/-- What a handshake comes to, apart from the bytes of the response. -/
def visible (result : Bool × MyWebSocketSession × List SessionEvent) :
    Bool × MyWebSocketSession × List SessionEvent :=
  (result.1, result.2.1, callbacks result.2.2)

theorem answerKey_at (platform : Platform) (now : Bytes) (session : MyWebSocketSession) :
    (session.answerKey (platform.at now)).map visible =
      (session.answerKey platform).map visible := by
  unfold answerKey
  split
  · rfl
  · split
    · rfl
    · split
      · rfl
      · simp [visible, callbacks]

theorem checkHttpHeaders_at (platform : Platform) (now : Bytes) (session : MyWebSocketSession) :
    (session.checkHttpHeaders (platform.at now)).map visible =
      (session.checkHttpHeaders platform).map visible := by
  unfold checkHttpHeaders
  split
  · rfl
  · split
    · rfl
    · split
      · rfl
      · split
        · rfl
        · simp only [Option.bind_eq_bind, Option.map_bind, Function.comp_def, answerKey_at]

theorem handleHandshake_at (platform : Platform) (now : Bytes) (session : MyWebSocketSession)
    (data : Bytes) :
    (session.handleHandshake (platform.at now) data).map visible =
      (session.handleHandshake platform data).map visible := by
  simp only [handleHandshake, Option.bind_eq_bind, Option.map_bind, Function.comp_def]
  apply Option.bind_congr
  intro lines _
  split
  · rfl
  · split
    · rfl
    · simp only [Option.map_bind, Function.comp_def]
      apply Option.bind_congr
      intro parsed _
      split
      · rfl
      · simp only [Option.map_bind, Function.comp_def]
        apply Option.bind_congr
        intro headers _
        split
        · rfl
        · exact checkHttpHeaders_at platform now _

/-! ## The handshake -/

theorem answerKey_accepted {platform : Platform} {session next : MyWebSocketSession}
    {events : List SessionEvent}
    (accepted : session.answerKey platform = some (true, next, events)) :
    next.updateToWebSocket = true ∧ ∃ response, events = [.sent response, .onConnect] := by
  unfold answerKey at accepted
  split at accepted
  · cases accepted
  · split at accepted
    · cases accepted
    · split at accepted
      · cases accepted
      · cases accepted
        exact ⟨rfl, _, rfl⟩

theorem checkHttpHeaders_accepted {platform : Platform} {session next : MyWebSocketSession}
    {events : List SessionEvent}
    (accepted : session.checkHttpHeaders platform = some (true, next, events)) :
    next.updateToWebSocket = true ∧ ∃ response, events = [.sent response, .onConnect] := by
  unfold checkHttpHeaders at accepted
  split at accepted
  · cases accepted
  · split at accepted
    · cases accepted
    · split at accepted
      · cases accepted
      · split at accepted
        · cases accepted
        · rcases Option.bind_eq_some_iff.mp accepted with ⟨extended, _, answered⟩
          exact answerKey_accepted answered

theorem handleHandshake_accepted {platform : Platform} {session next : MyWebSocketSession}
    {data : Bytes} {events : List SessionEvent}
    (accepted : session.handleHandshake platform data = some (true, next, events)) :
    next.updateToWebSocket = true ∧ ∃ response, events = [.sent response, .onConnect] := by
  rcases Option.bind_eq_some_iff.mp accepted with ⟨lines, _, parsing⟩
  split at parsing
  · cases parsing
  · split at parsing
    · cases parsing
    · rcases Option.bind_eq_some_iff.mp parsing with ⟨⟨pathParsed, withPath⟩, _, parsing⟩
      cases pathParsed with
      | false => cases parsing
      | true =>
          rcases Option.bind_eq_some_iff.mp parsing with ⟨⟨headersParsed, withHeaders⟩, _, parsing⟩
          cases headersParsed with
          | false => cases parsing
          | true => exact checkHttpHeaders_accepted parsing

theorem length_blankLine : (ascii "\r\n\r\n").length = 4 := by decide

/-- A request that the session answers, whose only blank line ends it. -/
structure Acceptable (platform : Platform) (session : MyWebSocketSession) (handshake : Bytes)
    (next : MyWebSocketSession) : Prop where
  waiting : session.updateToWebSocket = false
  ends : StringUtil.find (ascii "\r\n\r\n") handshake = some (handshake.length - 4)
  accepted : ∃ events, session.handleHandshake platform handshake = some (true, next, events)

/-- The reads as they go on after the first `count` bytes. -/
def dropBytes : Nat → List Bytes → List Bytes
  | _, [] => []
  | count, read :: reads =>
      if read.length < count then dropBytes (count - read.length) reads
      else read.drop count :: reads

theorem flatten_dropBytes (count : Nat) (reads : List Bytes) :
    (dropBytes count reads).flatten = reads.flatten.drop count := by
  induction reads generalizing count with
  | nil => simp [dropBytes]
  | cons read reads induction =>
      rw [dropBytes]
      split
      · next short =>
          have none : read.drop count = [] := List.drop_eq_nil_of_le (by omega)
          rw [induction, List.flatten_cons, List.drop_append, none, List.nil_append]
      · next long =>
          rw [List.flatten_cons, List.flatten_cons, List.drop_append_of_le_length (by omega)]

section

variable {platform : Platform} {session next : MyWebSocketSession} {handshake : Bytes}
  {answered : List SessionEvent} (waiting : session.updateToWebSocket = false)
  (ends : StringUtil.find (ascii "\r\n\r\n") handshake = some (handshake.length - 4))
  (accepted : session.handleHandshake platform handshake = some (true, next, answered))

include waiting ends in

theorem onRead_before (platform : Platform) {unread : Bytes}
    (limit : unread.length < MAX_WEBSOCKET_CLIENT_PACKAGE_LENGTH)
    (front : unread <+: handshake) (short : unread.length < handshake.length) :
    session.onRead platform unread = some ⟨session, unread, []⟩ := by
  rcases front with ⟨missing, rfl⟩
  have whole := StringUtil.find_le ends
  rw [length_blankLine] at whole
  have absent := StringUtil.find_take ends (show unread.length < _ by rw [length_blankLine]; omega)
  rw [List.take_left] at absent
  rw [onRead, onReadLoop, if_neg (by omega), if_pos waiting, absent]
  simp [limit]

include waiting ends accepted

/-- The read that brings the blank line is answered and goes on with what is behind it. -/
theorem onRead_handshake {behind : Bytes}
    (limit : (handshake ++ behind).length < MAX_WEBSOCKET_CLIENT_PACKAGE_LENGTH) :
    session.onRead platform (handshake ++ behind) =
      (next.onRead platform behind).map fun later =>
        { later with events := answered ++ later.events } := by
  have whole := StringUtil.find_le ends
  have found := StringUtil.find_append ends behind
  rw [length_blankLine] at whole
  have size : handshake.length - 4 + 4 = handshake.length := by omega
  have upgraded := (handleHandshake_accepted accepted).1
  rw [onRead, onReadLoop, if_neg (by omega), if_pos waiting, found]
  dsimp only
  rw [size, List.take_left, List.drop_left, accepted]
  dsimp only
  rw [onReadLoop_upgraded platform upgraded, onRead_upgraded platform upgraded]

/-- Reading a stream with the handshake in front is reading what is behind it. -/
theorem readAll_handshake {unread : Bytes} {reads : List Bytes} {events : List SessionEvent}
    {stream : Bytes} (short : unread.length < handshake.length)
    (cut : unread ++ reads.flatten = handshake ++ stream)
    (within : WithinLimit platform ⟨session, unread, events⟩ reads) :
    readAll platform ⟨session, unread, events⟩ reads =
        readAll platform ⟨next, [], events ++ answered⟩
          (dropBytes (handshake.length - unread.length) reads) ∧
      WithinLimit platform ⟨next, [], events ++ answered⟩
        (dropBytes (handshake.length - unread.length) reads) := by
  induction reads generalizing unread events with
  | nil =>
      have sizes := congrArg List.length cut
      simp only [List.flatten_nil, List.append_nil, List.length_append] at sizes
      omega
  | cons read reads induction =>
      rcases within with ⟨limit, later⟩
      have sum : (unread ++ read).length = unread.length + read.length := List.length_append
      rw [List.flatten_cons, ← List.append_assoc] at cut
      have arrived : unread ++ read <+: handshake ++ stream := by
        rw [← cut]
        exact List.prefix_append _ _
      rw [dropBytes, readAll]
      rcases Nat.lt_or_ge (unread ++ read).length handshake.length with part | all
      · have front : unread ++ read <+: handshake :=
          List.prefix_of_prefix_length_le arrived (List.prefix_append _ _) (by omega)
        have returned := onRead_before waiting ends platform limit front part
        have rest := induction part cut (later _ returned)
        have missing : handshake.length - unread.length - read.length =
            handshake.length - (unread ++ read).length := by omega
        rw [if_pos (by omega), missing, returned]
        simpa using rest
      · have whole : handshake <+: unread ++ read :=
          List.prefix_of_prefix_length_le (List.prefix_append _ _) arrived all
        rcases whole with ⟨behind, equal⟩
        have front : read.drop (handshake.length - unread.length) = behind := by
          have dropped := congrArg (List.drop handshake.length) equal
          rw [List.drop_left, List.drop_append, List.drop_eq_nil_of_le (by omega),
            List.nil_append] at dropped
          exact dropped.symm
        have returned := onRead_handshake waiting ends accepted (equal ▸ limit)
        rw [equal] at returned
        rw [if_neg (by omega), front, returned]
        have sizes := congrArg List.length equal
        rw [List.length_append] at sizes
        constructor
        · rw [readAll, List.nil_append]
          cases next.onRead platform behind with
          | none => rfl
          | some last => simp
        · constructor
          · change behind.length < _
            change (unread ++ read).length < _ at limit
            omega
          · intro last reading
            have after := later { last with events := answered ++ last.events } (by
              rw [returned]
              exact congrArg (Option.map _) reading)
            simpa using after

end

/-! ## Two ways of cutting -/

/-- Once both streams have been read, the callbacks and the unread bytes are the same. -/
def Agree (platform : Platform) (nowLeft nowRight : Bytes) (session : MyWebSocketSession)
    (left right : List Bytes) : Prop :=
  ∃ lastLeft lastRight, readAll (platform.at nowLeft) ⟨session, [], []⟩ left = some lastLeft ∧
    readAll (platform.at nowRight) ⟨session, [], []⟩ right = some lastRight ∧
    callbacks lastLeft.events = callbacks lastRight.events ∧
    lastLeft.unread = lastRight.unread

/-- How many packages the reads behind the handshake let the session take: at most one a
read, when it is all there. -/
def packagesTaken (handshake : Bytes) (reads : List Bytes) : Option Nat :=
  Incremental.itemsTaken packageSpan [] (dropBytes handshake.length reads)

theorem packagesTaken_framewise (handshake : Bytes) {frames : List Rfc6455.Frame}
    (whole : ∀ frame ∈ frames, frame.maskingKey.isSome = true ∧ frame.payload ≠ [] ∧
      frame.encode.length < 2 ^ 31) :
    packagesTaken handshake (handshake :: frames.map Rfc6455.Frame.encode) =
      some frames.length := by
  have each : Incremental.itemsTaken packageSpan [] (frames.map Rfc6455.Frame.encode) =
      some frames.length := by
    induction frames with
    | nil => rfl
    | cons frame frames induction =>
        rcases whole frame (by simp) with ⟨masked, nonempty, small⟩
        have span := packageSpan_encode frame [] (by simpa using small) masked nonempty
        rw [List.append_nil] at span
        have rest := induction fun other member => whole other (by simp [member])
        rw [List.map_cons, Incremental.itemsTaken, List.nil_append, span]
        dsimp only
        rw [List.drop_length, rest]
        rfl
  have start : packageSpan [] = .waits := rfl
  rw [packagesTaken, dropBytes, if_neg (by omega), List.drop_length, Incremental.itemsTaken,
    List.append_nil, start]
  exact each

theorem takePackage_at (platform : Platform) (now : Bytes) :
    takePackage (platform.at now) = takePackage platform := rfl

theorem packageReader_at (platform : Platform) (now : Bytes) :
    packageReader (platform.at now) = packageReader platform := by
  simp only [packageReader, takePackage_at]

section

variable {platform : Platform} {session next : MyWebSocketSession} {handshake : Bytes}

theorem Acceptable.answered (acceptable : Acceptable platform session handshake next)
    (now : Bytes) : ∃ events,
      session.handleHandshake (platform.at now) handshake = some (true, next, events) ∧
      callbacks events = [.onConnect] := by
  rcases acceptable.accepted with ⟨answered, accepted⟩
  have same := handleHandshake_at platform now session handshake
  rw [accepted] at same
  rcases Option.map_eq_some_iff.mp same with ⟨⟨decided, after, events⟩, handled, equal⟩
  simp only [visible, Prod.mk.injEq] at equal
  rcases equal with ⟨rfl, rfl, _⟩
  rcases (handleHandshake_accepted handled).2 with ⟨response, rfl⟩
  exact ⟨_, handled, rfl⟩

/-- Behind the handshake a session does what the reader does, whatever the clock shows. -/
theorem Acceptable.readAll_eq (acceptable : Acceptable platform session handshake next)
    (now : Bytes) {reads : List Bytes} {stream : Bytes}
    (cut : reads.flatten = handshake ++ stream)
    (within : WithinLimit (platform.at now) ⟨session, [], []⟩ reads) :
    (readAll (platform.at now) ⟨session, [], []⟩ reads).map
        (fun last => (callbacks last.events, last.unread)) =
      ((packageReader platform).feedAll ⟨next, [], [.onConnect]⟩
        (dropBytes handshake.length reads)).map fun last => (last.events, last.unread) := by
  rcases acceptable.answered now with ⟨events, accepted, connected⟩
  have whole := StringUtil.find_le acceptable.ends
  rw [length_blankLine] at whole
  have front : ([] : Bytes).length < handshake.length := by
    rw [List.length_nil]
    omega
  rcases readAll_handshake acceptable.waiting acceptable.ends accepted front cut within with
    ⟨same, withinBehind⟩
  rw [List.length_nil, Nat.sub_zero] at same withinBehind
  rw [same, ← packageReader_at platform now]
  apply readAll_follows _ _ withinBehind
  exact ⟨(handleHandshake_accepted accepted).1, rfl, connected, .inl rfl⟩

/-- Two ways of cutting agree exactly when equally many packages are taken and no length
overflows on the way. -/
theorem cuttings_agree_iff (platform : Platform) (nowLeft nowRight : Bytes)
    (acceptable : Acceptable platform session handshake next) {stream : Bytes}
    {left right : List Bytes} (cutLeft : left.flatten = handshake ++ stream)
    (cutRight : right.flatten = handshake ++ stream)
    (withinLeft : WithinLimit (platform.at nowLeft) ⟨session, [], []⟩ left)
    (withinRight : WithinLimit (platform.at nowRight) ⟨session, [], []⟩ right) :
    Agree platform nowLeft nowRight session left right ↔
      ∃ count, packagesTaken handshake left = some count ∧
        packagesTaken handshake right = some count := by
  have followsLeft := acceptable.readAll_eq nowLeft cutLeft withinLeft
  have followsRight := acceptable.readAll_eq nowRight cutRight withinRight
  have same : (dropBytes handshake.length left).flatten =
      (dropBytes handshake.length right).flatten := by
    rw [flatten_dropBytes, flatten_dropBytes, cutLeft, cutRight]
  have readers := (packageReader platform).feedAll_agree_iff ⟨next, [], [.onConnect]⟩ same
  apply Iff.trans _ readers
  constructor
  · rintro ⟨lastLeft, lastRight, runLeft, runRight, sameEvents, sameUnread⟩
    rw [runLeft] at followsLeft
    rw [runRight] at followsRight
    rcases Option.map_eq_some_iff.mp followsLeft.symm with ⟨endLeft, fedLeft, equalLeft⟩
    rcases Option.map_eq_some_iff.mp followsRight.symm with ⟨endRight, fedRight, equalRight⟩
    injection equalLeft with eventsLeft unreadLeft
    injection equalRight with eventsRight unreadRight
    exact ⟨endLeft, endRight, fedLeft, fedRight,
      eventsLeft.trans (sameEvents.trans eventsRight.symm),
      unreadLeft.trans (sameUnread.trans unreadRight.symm)⟩
  · rintro ⟨endLeft, endRight, fedLeft, fedRight, sameEvents, sameUnread⟩
    rw [fedLeft] at followsLeft
    rw [fedRight] at followsRight
    rcases Option.map_eq_some_iff.mp followsLeft with ⟨lastLeft, runLeft, equalLeft⟩
    rcases Option.map_eq_some_iff.mp followsRight with ⟨lastRight, runRight, equalRight⟩
    injection equalLeft with eventsLeft unreadLeft
    injection equalRight with eventsRight unreadRight
    exact ⟨lastLeft, lastRight, runLeft, runRight,
      eventsLeft.trans (sameEvents.trans eventsRight.symm),
      unreadLeft.trans (sameUnread.trans unreadRight.symm)⟩

end

/-! ## Two frames in one read -/

def sampleRequest : Bytes :=
  ["GET /realtime HTTP/1.1", "Host: 127.0.0.1:9989", "Connection: Upgrade", "Upgrade: websocket",
    "Origin: http://coolaf.com", "Sec-WebSocket-Key: IqcAWodjyPDJuhGgZwkpKg==", ""].flatMap
      fun line => ascii line ++ ascii "\r\n"

/-- A masked text frame of one byte. -/
def sampleFrame (byte : Byte) : Rfc6455.Frame where
  fin := true
  rsv := Rfc6455.noExtension
  opcode := MyOpCode.textFrame.value
  maskingKey := some ⟨[1, 2, 3, 4], rfl⟩
  payload := [byte]
  short := by
    rw [List.length_singleton]
    decide

theorem sampleRequest_acceptable : ∃ next, Acceptable .still create sampleRequest next := by
  have handled : (create.handleHandshake .still sampleRequest).map Prod.fst = some true := by
    decide +kernel
  rcases Option.map_eq_some_iff.mp handled with ⟨⟨decided, next, events⟩, accepted, rfl⟩
  exact ⟨next, rfl, by decide +kernel, events, accepted⟩

theorem withinLimit_sample {reads : List Bytes}
    (cut : reads.flatten = sampleRequest ++ ((sampleFrame 1).encode ++ (sampleFrame 2).encode)) :
    WithinLimit (Platform.still.at []) ⟨create, [], []⟩ reads := by
  apply withinLimit_of_length
  rw [List.nil_append, cut]
  decide +kernel

/-- One frame to a read: both ways let the session take both frames. -/
theorem cuttings_agree_iff_request :
    Agree .still [] [] create
      [sampleRequest, (sampleFrame 1).encode, (sampleFrame 2).encode]
      [sampleRequest ++ (sampleFrame 1).encode, (sampleFrame 2).encode] := by
  rcases sampleRequest_acceptable with ⟨next, acceptable⟩
  have left : [sampleRequest, (sampleFrame 1).encode, (sampleFrame 2).encode].flatten =
      sampleRequest ++ ((sampleFrame 1).encode ++ (sampleFrame 2).encode) := by simp
  have right : [sampleRequest ++ (sampleFrame 1).encode, (sampleFrame 2).encode].flatten =
      sampleRequest ++ ((sampleFrame 1).encode ++ (sampleFrame 2).encode) := by simp
  apply (cuttings_agree_iff .still [] [] acceptable left right (withinLimit_sample left)
    (withinLimit_sample right)).mpr
  exact ⟨2, by decide +kernel, by decide +kernel⟩

/-- Two frames in one read: the second stays unread, which it does not when it arrives
in a read of its own. -/
theorem merged_frames_disagree :
    (∃ next, Acceptable .still create sampleRequest next) ∧
    WithinLimit (Platform.still.at []) ⟨create, [], []⟩
      [sampleRequest, (sampleFrame 1).encode ++ (sampleFrame 2).encode] ∧
    WithinLimit (Platform.still.at []) ⟨create, [], []⟩
      [sampleRequest, (sampleFrame 1).encode, (sampleFrame 2).encode] ∧
    ¬ Agree .still [] [] create
      [sampleRequest, (sampleFrame 1).encode ++ (sampleFrame 2).encode]
      [sampleRequest, (sampleFrame 1).encode, (sampleFrame 2).encode] := by
  refine ⟨sampleRequest_acceptable, withinLimit_sample (by simp), withinLimit_sample (by simp), ?_⟩
  rintro ⟨lastLeft, lastRight, runLeft, runRight, same, _⟩
  have left : (readAll (Platform.still.at []) ⟨create, [], []⟩
      [sampleRequest, (sampleFrame 1).encode ++ (sampleFrame 2).encode]).map
        (fun last => callbacks last.events) = some [.onConnect, .onMessage [1]] := by
    decide +kernel
  have right : (readAll (Platform.still.at []) ⟨create, [], []⟩
      [sampleRequest, (sampleFrame 1).encode, (sampleFrame 2).encode]).map
        (fun last => callbacks last.events) =
          some [.onConnect, .onMessage [1], .onMessage [2]] := by
    decide +kernel
  rw [runLeft, Option.map_some, same] at left
  rw [runRight, Option.map_some, left] at right
  cases right

end MyWebSocketSession

end MyBookSources.WebSocket
