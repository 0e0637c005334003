import MyBookSources.WebSocket.PendingMessage

/-! # The flag for compression

On a session with compression, `send` sets RSV1 in every frame, and compresses every payload
that is not empty. `decodePackage` does not look at RSV1: the opcode of the last frame decides
whether a message is inflated.
-/

namespace MyBookSources.WebSocket

open Machine

namespace MyOpCode

/-- Control opcodes have the highest of the four bits set. -/
def isData (opcode : MyOpCode) : Bool := opcode.value.val < 8

/-- The opcodes with which `processPackage` hands a message to the application. -/
def carriesMessage (opcode : MyOpCode) : Bool := opcode = textFrame ∨ opcode = binaryFrame

end MyOpCode

namespace MyWebSocketSession

def RSV1 (bytes : Bytes) : Bool := flagsByte bytes &&& 0x40 ≠ 0

/-! ## Frames that are sent -/

/-- `destbuf`, and whether `deflate` has filled it. -/
def destbuf (platform : Platform) (session : MyWebSocketSession) (data : Bytes) :
    Option (Bool × Bytes) :=
  if session.clientCompressed ∧ 0 < data.length then
    (platform.deflate data).map fun compressed => (true, compressed)
  else some (false, data)

theorem send_eq_destbuf (platform : Platform) (session : MyWebSocketSession) (data : Bytes)
    (opcode : UInt8) :
    session.send platform data opcode = (session.destbuf platform data).map fun filled =>
      packageHeader session.clientCompressed opcode filled.2.length ++ filled.2 := by
  rw [send, destbuf]
  split
  · cases platform.deflate data with
    | none => rfl
    | some compressed => rfl
  · rfl

/-- The frame that is sent, if one is, has RSV1 exactly if its payload is compressed and the
opcode is one for data. -/
def SendAgrees (platform : Platform) (session : MyWebSocketSession) (data : Bytes)
    (opcode : MyOpCode) : Prop :=
  ∀ deflated payload, session.destbuf platform data = some (deflated, payload) →
    ∀ frame, session.send platform data (UInt8.ofNat opcode.value) = some frame →
      (RSV1 frame = true ↔ deflated = true ∧ opcode.isData = true)

/-- There is something to compress, and either it is not sent or the opcode is one for data. -/
def SendFits (platform : Platform) (data : Bytes) (opcode : MyOpCode) : Prop :=
  data ≠ [] ∧ (platform.deflate data = none ∨ opcode.isData = true)

theorem RSV1_packageHeader (compressed : Bool) (opcode : MyOpCode) (dataLength : Nat)
    (payload : Bytes) :
    RSV1 (packageHeader compressed (UInt8.ofNat opcode.value) dataLength ++ payload) =
      compressed := by
  have flags : flagsByte (packageHeader compressed (UInt8.ofNat opcode.value) dataLength ++
      payload) = 0x80 ||| UInt8.ofNat opcode.value ||| (if compressed then 0x40 else 0) := by
    simp only [packageHeader]
    generalize (0x80 ||| UInt8.ofNat opcode.value ||| if compressed then 0x40 else 0) = flags
    split
    · rfl
    · split
      · rfl
      · rfl
  rw [RSV1, flags]
  cases compressed with
  | false => cases opcode <;> decide
  | true => cases opcode <;> decide

/-- With compression the flag is always set. -/
theorem sendAgrees_iff (platform : Platform) {session : MyWebSocketSession}
    (negotiated : session.clientCompressed = true) (data : Bytes) (opcode : MyOpCode) :
    session.SendAgrees platform data opcode ↔ SendFits platform data opcode := by
  simp only [SendAgrees, SendFits, send_eq_destbuf]
  rw [destbuf, negotiated]
  cases data with
  | nil =>
      have flag := RSV1_packageHeader true opcode 0 []
      rw [List.append_nil] at flag
      simp [flag]
  | cons byte data =>
      cases platform.deflate (byte :: data) with
      | none => simp
      | some compressed => simp [RSV1_packageHeader]

/-! ## Frames that are received -/

/-- What `processPackage` passes to `inflate`. -/
def inflateInput (session : MyWebSocketSession) (data : Bytes) (opcode : MyOpCode) :
    Option Bytes :=
  if opcode.carriesMessage ∧ session.clientCompressed then some data else none

theorem processPackage_eq_inflateInput (platform : Platform) (session : MyWebSocketSession)
    (data : Bytes) (opcode : MyOpCode) :
    session.processPackage platform data opcode =
      match session.inflateInput data opcode with
      | some input =>
          match platform.inflate input with
          | none => (false, [])
          | some out => (true, [.onMessage out])
      | none => { session with clientCompressed := false }.processPackage platform data opcode := by
  cases compressed : session.clientCompressed with
  | false => cases opcode <;> simp [processPackage, inflateInput, compressed]
  | true =>
      cases opcode with
      | textFrame | binaryFrame =>
          simp only [inflateInput, MyOpCode.carriesMessage, compressed, true_or, or_true,
            decide_true, and_self, if_true]
          rw [processPackage, compressed]
          cases platform.inflate data with
          | none => rfl
          | some out => rfl
      | _ => simp [processPackage, inflateInput, MyOpCode.carriesMessage]

/-- The sizes of the package that a read of an upgraded session takes from the front. -/
def takenPackage (unread : Bytes) : Option (Nat × Nat) :=
  if MAX_WEBSOCKET_CLIENT_PACKAGE_LENGTH ≤ unread.length ∨
      unread.length < MIN_WEBSOCKET_PACKAGE_HEADER_LENGTH then none
  else
    match packageLength unread with
    | .known headerSize bodyLength =>
        if int32 unread.length < headerSize + bodyLength then none
        else some (headerSize, bodyLength)
    | _ => none

/-- A message that has got to `processPackage`: RSV1 of its first frame, the opcode of its last
one, and whether it is inflated. -/
structure Processed where
  rsv1 : Bool
  opcode : MyOpCode
  inflated : Bool
  deriving DecidableEq

/-- A session that is read from, RSV1 of the first frame of the pending data, and the messages
up to now. -/
structure Receiver where
  progress : Progress
  first : Option Bool
  messages : List Processed

def processed (session : MyWebSocketSession) (first : Bool) (unread data : Bytes) : Processed :=
  ⟨first, opcode unread, (session.inflateInput data (opcode unread)).isSome⟩

/-- One read, where it is noted what becomes of the package that it takes. Data that is refused
stays pending. -/
def receive (platform : Platform) (receiver : Receiver) (read : Bytes) : Option Receiver :=
  (readStep platform receiver.progress read).map fun next =>
    let session := receiver.progress.session
    let unread := receiver.progress.unread ++ read
    match takenPackage unread with
    | none => { receiver with progress := next }
    | some (headerSize, bodyLength) =>
        let first := receiver.first.getD (RSV1 unread)
        let data := session.parsedData ++ payloadData unread headerSize bodyLength
        if FIN unread then
          ⟨next, if (session.processPackage platform data (opcode unread)).1 then none
            else some first, receiver.messages ++ [session.processed first unread data]⟩
        else ⟨next, some first, receiver.messages⟩

/-- Every message is inflated exactly if its first frame had RSV1 set. -/
def ReceiveAgrees (receiver : Receiver) : Prop :=
  ∀ message ∈ receiver.messages, message.inflated = true ↔ message.rsv1 = true

/-- If the package that is taken ends a message, then its opcode is that of a text or of binary
data exactly if the first frame of the message has RSV1. -/
def ReceiveFits (receiver : Receiver) (read : Bytes) : Prop :=
  let unread := receiver.progress.unread ++ read
  (takenPackage unread).isSome = true → FIN unread = true →
    ((opcode unread).carriesMessage = true ↔ receiver.first.getD (RSV1 unread) = true)

theorem onRead_takenPackage {platform : Platform} {session : MyWebSocketSession}
    {unread : Bytes} {next : Progress} (upgraded : session.updateToWebSocket = true)
    (returned : session.onRead platform unread = some next) :
    match takenPackage unread with
    | none => next.session = session
    | some (headerSize, bodyLength) =>
        let merged := session.mergePackage platform (FIN unread) (opcode unread)
          (payloadData unread headerSize bodyLength)
        next.session = merged.2.1 ∧ next.unread = unread.drop (headerSize + bodyLength) := by
  rw [onRead_upgraded platform upgraded] at returned
  rw [takenPackage]
  split at returned
  · next limit =>
    cases returned
    rw [if_pos (.inl limit)]
  · next limit =>
    split at returned
    · next few =>
      cases returned
      rw [if_pos (.inr few)]
    · next enough =>
      rw [if_neg (by tauto)]
      rcases Option.map_eq_some_iff.mp returned with ⟨⟨decoded, progress⟩, decode, rfl⟩
      unfold decodePackage at decode
      split at decode
      · next incomplete =>
        cases decode
        rw [incomplete]
      · next illegal =>
        cases decode
        rw [illegal]
      · next headerSize bodyLength known =>
        split at decode
        · cases decode
        · split at decode
          · next missing =>
            cases decode
            simp only [known, missing, if_true]
          · next covered =>
            cases decode
            simp only [known, covered, if_false]
            exact ⟨rfl, trivial⟩

theorem receive_messages {platform : Platform} {receiver next : Receiver} {read : Bytes}
    (negotiated : receiver.progress.session.clientCompressed = true)
    (step : receive platform receiver read = some next) :
    next.messages = receiver.messages ∧ ReceiveFits receiver read ∨
      next.messages = receiver.messages ++
        [⟨receiver.first.getD (RSV1 (receiver.progress.unread ++ read)),
          opcode (receiver.progress.unread ++ read),
          (opcode (receiver.progress.unread ++ read)).carriesMessage⟩] ∧
        (takenPackage (receiver.progress.unread ++ read)).isSome = true ∧
        FIN (receiver.progress.unread ++ read) = true := by
  rcases Option.map_eq_some_iff.mp step with ⟨progress, _, rfl⟩
  dsimp only
  split
  · next absent => exact .inl ⟨rfl, fun taken => by rw [absent] at taken; cases taken⟩
  · next headerSize bodyLength taken =>
    cases final : FIN (receiver.progress.unread ++ read) with
    | false => exact .inl ⟨rfl, fun _ last => by rw [final] at last; cases last⟩
    | true =>
        refine .inr ⟨?_, by rw [taken]; rfl, rfl⟩
        simp only [if_true, processed, inflateInput, negotiated, and_true]
        cases (opcode (receiver.progress.unread ++ read)).carriesMessage with
        | false => rfl
        | true => rfl

theorem receive_session {platform : Platform} {receiver next : Receiver} {read : Bytes}
    (upgraded : receiver.progress.session.updateToWebSocket = true)
    (step : receive platform receiver read = some next) :
    next.progress.session.updateToWebSocket = true ∧
      next.progress.session.clientCompressed =
        receiver.progress.session.clientCompressed := by
  rcases Option.map_eq_some_iff.mp step with ⟨progress, returned, rfl⟩
  rcases Option.map_eq_some_iff.mp returned with ⟨after, read_eq, rfl⟩
  have kept : after.session.updateToWebSocket = true ∧
      after.session.clientCompressed = receiver.progress.session.clientCompressed := by
    have taken := onRead_takenPackage upgraded read_eq
    split at taken
    · rw [taken]
      exact ⟨upgraded, rfl⟩
    · next headerSize bodyLength _ =>
      rcases receiver.progress.session.mergePackage_session platform
        (FIN (receiver.progress.unread ++ read)) (opcode (receiver.progress.unread ++ read))
        (payloadData (receiver.progress.unread ++ read) headerSize bodyLength) with
        ⟨pending, merged⟩
      rw [taken.1, merged]
      exact ⟨upgraded, rfl⟩
  dsimp only
  split
  · exact kept
  · split
    · exact kept
    · exact kept

/-- A session with compression, with which data is read that nothing is known of. -/
def startReceiving (session : MyWebSocketSession) (unread : Bytes) : Receiver :=
  ⟨⟨session, unread, []⟩, none, []⟩

/-- On a session with compression, RSV1 agrees with what is compressed and inflated exactly as
far as there is data with an opcode for it, and as the client marks the messages that end with
the opcode of a text or of binary data, and no others. -/
theorem rsv1_agrees_iff (platform : Platform) {session : MyWebSocketSession}
    (upgraded : session.updateToWebSocket = true)
    (negotiated : session.clientCompressed = true) :
    (∀ data opcode, session.SendAgrees platform data opcode ↔ SendFits platform data opcode) ∧
      ∀ unread reads last,
        runPartial (receive platform) (session.startReceiving unread) reads = some last →
        (RunHolds (receive platform) ReceiveAgrees (session.startReceiving unread) reads ↔
          RunPermits (receive platform) ReceiveFits (session.startReceiving unread) reads) := by
  refine ⟨sendAgrees_iff platform negotiated, ?_⟩
  intro unread reads last run
  let invariant (receiver : Receiver) : Prop :=
    receiver.progress.session.updateToWebSocket = true ∧
      receiver.progress.session.clientCompressed = true ∧ ReceiveAgrees receiver
  have none_yet : ReceiveAgrees (session.startReceiving unread) := by
    intro message member
    cases member
  have initial : invariant (session.startReceiving unread) := ⟨upgraded, negotiated, none_yet⟩
  apply runHolds_iff_of_run _ _ initial none_yet run
  · rintro receiver read next ⟨upgraded, negotiated, agrees⟩ step fits
    have kept := receive_session upgraded step
    have after : ReceiveAgrees next := by
      rcases receive_messages negotiated step with ⟨same, _⟩ | ⟨added, taken, final⟩
      · rw [ReceiveAgrees, same]
        exact agrees
      · intro message member
        rw [added, List.mem_append, List.mem_singleton] at member
        rcases member with earlier | rfl
        · exact agrees message earlier
        · exact fits taken final
    exact ⟨⟨kept.1, kept.2.trans negotiated, after⟩, after⟩
  · rintro receiver read next ⟨_, negotiated, _⟩ step agrees
    rcases receive_messages negotiated step with ⟨_, fits⟩ | ⟨added, _, _⟩
    · exact fits
    · intro _ _
      apply agrees ⟨_, _, _⟩
      rw [added]
      exact List.mem_append_right _ List.mem_cons_self

def negotiated : MyWebSocketSession :=
  { create with updateToWebSocket := true, clientCompressed := true }

/-- The text `a` in a masked frame, with RSV1 and without. -/
def flaggedText : Bytes := [0xC1, 0x81, 0, 0, 0, 0, 97]

def plainText : Bytes := [0x81, 0x81, 0, 0, 0, 0, 97]

theorem rsv1_agrees_iff_flagged :
    negotiated.SendAgrees .still (ascii "a") .textFrame ∧
      RunHolds (receive .still) ReceiveAgrees (negotiated.startReceiving []) [flaggedText] := by
  have agrees := @rsv1_agrees_iff .still negotiated rfl rfl
  refine ⟨(agrees.1 _ _).mpr ⟨by decide, .inr rfl⟩, (agrees.2 [] [flaggedText] _ rfl).mpr ?_⟩
  exact ⟨fun _ _ => by decide, fun _ _ => trivial⟩

/-- An empty pong has RSV1 set, and a text without it is inflated. -/
theorem flag_without_compression :
    negotiated.send .still [] (UInt8.ofNat MyOpCode.pong.value) = some [0xCA, 0] ∧
      ¬ negotiated.SendAgrees .still [] .pong ∧
      ¬ RunHolds (receive .still) ReceiveAgrees (negotiated.startReceiving []) [plainText] := by
  refine ⟨by decide, ?_, ?_⟩
  · intro agrees
    have flag := (agrees false [] (by decide) [0xCA, 0] (by decide)).mp (by decide)
    cases flag.1
  · rintro ⟨_, next, step, agrees⟩
    cases step
    have inflated := (agrees ⟨false, .textFrame, true⟩ (by decide)).mp rfl
    cases inflated

end MyWebSocketSession

end MyBookSources.WebSocket
