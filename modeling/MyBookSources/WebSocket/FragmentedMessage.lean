import MyBookSources.WebSocket.PackageDecoding

/-! # Messages in fragments

A message in fragments with control frames between them, read one frame per call of
`onRead`. `processPackage` decides by the opcode of the final frame, so the final
fragment of a message in several fragments is never delivered.
-/

namespace MyBookSources.WebSocket

structure Fragment where
  key : Rfc6455.MaskingKey
  payload : Bytes
  short : payload.length < 2 ^ 63

inductive ControlKind
  | ping
  | pong
  deriving DecidableEq

/-- A control frame has at most 125 bytes of payload. -/
structure Control where
  kind : ControlKind
  key : Rfc6455.MaskingKey
  payload : Bytes
  short : payload.length ≤ 125

namespace Fragment

def frame (fragment : Fragment) (fin : Bool) (opcode : MyOpCode) : Rfc6455.Frame where
  fin := fin
  rsv := Rfc6455.noExtension
  opcode := opcode.value
  maskingKey := some fragment.key
  payload := fragment.payload
  short := fragment.short

end Fragment

namespace Control

def opcode (control : Control) : MyOpCode :=
  match control.kind with
  | .ping => .ping
  | .pong => .pong

def callback (control : Control) : SessionEvent :=
  match control.kind with
  | .ping => .onPing
  | .pong => .onPong

def frame (control : Control) : Rfc6455.Frame where
  fin := true
  rsv := Rfc6455.noExtension
  opcode := control.opcode.value
  maskingKey := some control.key
  payload := control.payload
  short := lt_of_le_of_lt control.short (by decide)

end Control

inductive DataKind
  | text
  | binary
  deriving DecidableEq

def DataKind.opcode : DataKind → MyOpCode
  | .text => .textFrame
  | .binary => .binaryFrame

/-- The first fragment, and each later one behind the control frames in front of it. -/
structure FragmentedMessage where
  kind : DataKind
  first : Fragment
  others : List (List Control × Fragment)

namespace FragmentedMessage

def payload (message : FragmentedMessage) : Bytes :=
  message.first.payload ++ message.others.flatMap fun other => other.2.payload

def laterFrames : List (List Control × Fragment) → List Rfc6455.Frame
  | [] => []
  | (controls, fragment) :: others =>
      controls.map Control.frame ++
        fragment.frame others.isEmpty .continuationFrame :: laterFrames others

/-- Only the last fragment has FIN set, only the first one says what the message is. -/
def frames (message : FragmentedMessage) : List Rfc6455.Frame :=
  message.first.frame message.others.isEmpty message.kind.opcode :: laterFrames message.others

def laterCallbacks (delivered : SessionEvent) :
    List (List Control × Fragment) → List (List SessionEvent)
  | [] => []
  | (controls, _) :: others =>
      controls.map (fun control => [control.callback]) ++
        (if others.isEmpty then [delivered] else []) :: laterCallbacks delivered others

def callbacks (message : FragmentedMessage) : List (List SessionEvent) :=
  (if message.others.isEmpty then [.onMessage message.payload] else []) ::
    laterCallbacks (.onMessage message.payload) message.others

end FragmentedMessage

namespace MyWebSocketSession

/-- What each of a series of calls of `onRead` does. -/
def eventsPerRead (platform : Platform) (session : MyWebSocketSession) (unread : Bytes) :
    List Bytes → Option (List (List SessionEvent))
  | [] => some []
  | read :: reads => do
      let next ← session.onRead platform (unread ++ read)
      let others ← next.session.eventsPerRead platform next.unread reads
      some (next.events :: others)

/-- Frame for frame, the message and the control frames cause their callbacks. -/
def Reassembles (platform : Platform) (session : MyWebSocketSession)
    (message : FragmentedMessage) : Prop :=
  session.eventsPerRead platform [] (message.frames.map Rfc6455.Frame.encode) =
    some message.callbacks

/-- Nothing of a message is pending and the client asked for no compression. -/
structure Ready (session : MyWebSocketSession) : Prop where
  upgraded : session.updateToWebSocket = true
  uncompressed : session.clientCompressed = false

/-! ## One frame -/

structure BeforeLast (frame : Rfc6455.Frame) : Prop where
  masked : frame.maskingKey.isSome = true
  nonempty : frame.payload ≠ []
  pending : frame.fin = false ∨ frame.opcode = MyOpCode.ping.value ∨
    frame.opcode = MyOpCode.pong.value

theorem mergePackage_ready {platform : Platform} {session : MyWebSocketSession}
    (ready : session.Ready) (fin : Bool) (opcode : MyOpCode) (data : Bytes) :
    (session.mergePackage platform fin opcode data).2.1.Ready := by
  rcases session.mergePackage_session platform fin opcode data with ⟨pending, merged⟩
  rw [merged]
  exact ⟨ready.upgraded, ready.uncompressed⟩

theorem onRead_encode {platform : Platform} {session : MyWebSocketSession}
    (ready : session.Ready) (frame : Rfc6455.Frame) (masked : frame.maskingKey.isSome = true)
    (nonempty : frame.payload ≠ []) :
    session.onRead platform frame.encode =
      if MAX_WEBSOCKET_CLIENT_PACKAGE_LENGTH ≤ frame.encode.length then
        some ⟨session, frame.encode, [.forceClose]⟩
      else
        let merged := session.mergePackage platform frame.fin (.ofValue frame.opcode) frame.payload
        some ⟨merged.2.1, [], merged.2.2 ++ if merged.1 then [] else [.forceClose]⟩ := by
  rw [onRead_upgraded platform ready.upgraded]
  split
  · rfl
  · next limit =>
      have positive : 0 < frame.payload.length := List.length_pos_iff.mpr nonempty
      have sum := frame.length_encode
      have key := frame.length_keyBytes masked
      have enough : ¬ frame.encode.length < MIN_WEBSOCKET_PACKAGE_HEADER_LENGTH := by
        unfold MIN_WEBSOCKET_PACKAGE_HEADER_LENGTH
        omega
      have small : (frame.encode ++ []).length < 2 ^ 31 := by
        rw [List.append_nil]
        unfold MAX_WEBSOCKET_CLIENT_PACKAGE_LENGTH at limit
        omega
      have taken := decodePackage_encode frame [] small nonempty platform session
      rw [List.append_nil] at taken
      rw [if_neg enough, taken]
      rfl

/-- A frame before the last leaves the session ready for the next one, unless it is
refused for its size. -/
theorem onRead_beforeLast {platform : Platform} {session : MyWebSocketSession}
    (ready : session.Ready) {frame : Rfc6455.Frame} (beforeLast : BeforeLast frame) :
    ∃ next, session.onRead platform frame.encode = some next ∧
      (next.events = [.forceClose] ∨ next.session.Ready ∧ next.unread = []) := by
  rw [onRead_encode ready frame beforeLast.masked beforeLast.nonempty]
  split
  · exact ⟨_, rfl, .inl rfl⟩
  · refine ⟨_, rfl, .inr ⟨mergePackage_ready ready _ _ _, rfl⟩⟩

theorem onRead_finalContinuation {platform : Platform} {session : MyWebSocketSession}
    (ready : session.Ready) (fragment : Fragment) (delivered : Bytes) {next : Progress}
    (read : session.onRead platform (fragment.frame true .continuationFrame).encode =
      some next) : next.events ≠ [.onMessage delivered] := by
  have fin := FIN_encode (fragment.frame true .continuationFrame) []
  have code := opcode_encode (fragment.frame true .continuationFrame) []
  rw [List.append_nil] at fin code
  rw [onRead_upgraded platform ready.upgraded] at read
  split at read
  · cases read
    simp
  · split at read
    · cases read
      simp
    · rcases Option.map_eq_some_iff.mp read with ⟨⟨decoded, progress⟩, decode, rfl⟩
      rcases decodePackage_cases decode with rfl | ⟨headerSize, bodyLength, _, _, taken⟩
      · cases decoded <;> simp
      · rw [fin, code] at taken
        cases taken
        simp [mergePackage, Fragment.frame, processPackage]

theorem onRead_whole (platform : Platform) {session : MyWebSocketSession}
    (ready : session.Ready) (nothingPending : session.parsedData = []) (fragment : Fragment)
    (kind : DataKind)
    (limit : (fragment.frame true kind.opcode).encode.length <
      MAX_WEBSOCKET_CLIENT_PACKAGE_LENGTH) :
    ∃ next, session.onRead platform (fragment.frame true kind.opcode).encode = some next ∧
      next.events = [.onMessage fragment.payload] := by
  have merged : ∀ data, session.mergePackage platform true kind.opcode data =
      (true, { session with parsedData := [] }, [.onMessage data]) := by
    intro data
    cases kind <;>
      simp [mergePackage, DataKind.opcode, processPackage, ready.uncompressed, nothingPending]
  have code : MyOpCode.ofValue (fragment.frame true kind.opcode).opcode = kind.opcode :=
    MyOpCode.ofValue_value _
  by_cases empty : fragment.payload = []
  · have small : ((fragment.frame true kind.opcode).encode ++ []).length < 2 ^ 31 := by
      rw [List.append_nil]
      exact limit.trans (by decide)
    have taken := decodePackage_encode_empty platform session
      (fragment.frame true kind.opcode) [] small empty
    rw [List.append_nil, code] at taken
    have key := (fragment.frame true kind.opcode).length_keyBytes rfl
    have sum := (fragment.frame true kind.opcode).length_encode
    have enough : ¬ (fragment.frame true kind.opcode).encode.length <
        MIN_WEBSOCKET_PACKAGE_HEADER_LENGTH := by
      unfold MIN_WEBSOCKET_PACKAGE_HEADER_LENGTH
      omega
    have fin : (fragment.frame true kind.opcode).fin = true := rfl
    rw [onRead_upgraded platform ready.upgraded, if_neg (by omega), if_neg enough, taken, fin,
      merged, empty]
    exact ⟨_, rfl, rfl⟩
  · rw [onRead_encode ready _ rfl empty, if_neg (by omega), code]
    have fin : (fragment.frame true kind.opcode).fin = true := rfl
    have payload : (fragment.frame true kind.opcode).payload = fragment.payload := rfl
    rw [fin, payload, merged]
    exact ⟨_, rfl, rfl⟩

/-! ## The frames of a message -/

theorem eventsPerRead_last {platform : Platform} {session : MyWebSocketSession}
    (ready : session.Ready) {frames : List Rfc6455.Frame}
    (beforeLast : ∀ frame ∈ frames, BeforeLast frame) {last : Bytes}
    {results : List (List SessionEvent)}
    (run : session.eventsPerRead platform [] (frames.map Rfc6455.Frame.encode ++ [last]) =
      some results) :
    [.forceClose] ∈ results ∨
      ∃ (before : MyWebSocketSession) (next : Progress), before.Ready ∧
        before.onRead platform last = some next ∧ results.getLast? = some next.events := by
  induction frames generalizing session results with
  | nil =>
      rcases Option.bind_eq_some_iff.mp run with ⟨next, read, others⟩
      cases others
      exact .inr ⟨session, next, ready, read, rfl⟩
  | cons frame frames induction =>
      rcases onRead_beforeLast ready (beforeLast frame (by simp)) with
        ⟨next, read, kept⟩
      rcases Option.bind_eq_some_iff.mp run with ⟨next', read', others⟩
      rw [List.nil_append, read] at read'
      cases read'
      rcases Option.bind_eq_some_iff.mp others with ⟨results', later, equal⟩
      cases equal
      rcases kept with refused | ⟨readyNext, taken⟩
      · left
        simp [refused]
      · rw [taken] at later
        have rest : ∀ frame ∈ frames, BeforeLast frame := by
          intro other member
          exact beforeLast other (by simp [member])
        rcases induction readyNext rest later with refused | ⟨before, final, stays, read, same⟩
        · left
          exact List.mem_cons_of_mem _ refused
        · right
          refine ⟨before, final, stays, read, ?_⟩
          rw [List.getLast?_cons, same]
          rfl

end MyWebSocketSession

namespace FragmentedMessage

open MyWebSocketSession

theorem laterFrames_last {others : List (List Control × Fragment)} (several : others ≠ []) :
    ∃ (init : List Rfc6455.Frame) (fragment : Fragment),
      laterFrames others = init ++ [fragment.frame true .continuationFrame] ∧
      ∀ frame ∈ init, frame.payload ≠ [] → BeforeLast frame := by
  induction others with
  | nil => exact absurd rfl several
  | cons other others induction =>
      rcases other with ⟨controls, fragment⟩
      have control : ∀ frame ∈ controls.map Control.frame, frame.payload ≠ [] →
          BeforeLast frame := by
        intro frame member nonempty
        rcases List.mem_map.mp member with ⟨control, _, rfl⟩
        refine ⟨rfl, nonempty, .inr ?_⟩
        rcases control with ⟨_ | _, key, payload, short⟩
        · exact .inl rfl
        · exact .inr rfl
      rcases others with _ | ⟨next, others⟩
      · exact ⟨controls.map Control.frame, fragment, rfl, control⟩
      · rcases induction (by simp) with ⟨init, last, equal, pending⟩
        refine ⟨controls.map Control.frame ++
          fragment.frame false .continuationFrame :: init, last, ?_, ?_⟩
        · rw [laterFrames, equal]
          simp
        · intro frame member nonempty
          rcases List.mem_append.mp member with inControls | later
          · exact control frame inControls nonempty
          · rcases List.mem_cons.mp later with rfl | inInit
            · exact ⟨rfl, nonempty, .inl rfl⟩
            · exact pending frame inInit nonempty

theorem laterCallbacks_last {others : List (List Control × Fragment)} (several : others ≠ [])
    (delivered : SessionEvent) :
    (laterCallbacks delivered others).getLast? = some [delivered] := by
  induction others with
  | nil => exact absurd rfl several
  | cons other others induction =>
      rcases others with _ | ⟨next, others⟩
      · simp [laterCallbacks]
      · have last := induction (by simp)
        rw [laterCallbacks, List.getLast?_append, List.getLast?_cons, last]
        rfl

theorem forceClose_not_mem_laterCallbacks (others : List (List Control × Fragment))
    (message : Bytes) : [.forceClose] ∉ laterCallbacks (.onMessage message) others := by
  induction others with
  | nil => simp [laterCallbacks]
  | cons other others induction =>
      rcases other with ⟨controls, fragment⟩
      intro member
      rcases List.mem_append.mp member with inControls | later
      · rcases List.mem_map.mp inControls with ⟨control, _, equal⟩
        rcases control with ⟨_ | _, key, payload, short⟩ <;> cases equal
      · rcases List.mem_cons.mp later with equal | later
        · split at equal <;> cases equal
        · exact induction later

/-- A message whose last fragment is a continuation does not reach the application. -/
theorem not_reassembles {platform : Platform} {session : MyWebSocketSession}
    (ready : session.Ready) {message : FragmentedMessage} (several : message.others ≠ [])
    (nonempty : ∀ frame ∈ message.frames.dropLast, frame.payload ≠ []) :
    ¬ session.Reassembles platform message := by
  intro reassembles
  rcases laterFrames_last several with ⟨init, last, equal, pending⟩
  have notSingle : message.others.isEmpty = false := by
    simpa [List.isEmpty_iff] using several
  have frames : message.frames =
      (message.first.frame false message.kind.opcode :: init) ++
        [last.frame true .continuationFrame] := by
    rw [FragmentedMessage.frames, equal, notSingle]
    rfl
  rw [frames, List.dropLast_concat] at nonempty
  have beforeLast : ∀ frame ∈ message.first.frame false message.kind.opcode :: init,
      BeforeLast frame := by
    intro frame member
    rcases List.mem_cons.mp member with rfl | inInit
    · exact ⟨rfl, nonempty _ (by simp), .inl rfl⟩
    · exact pending frame inInit (nonempty frame member)
  unfold Reassembles at reassembles
  rw [frames, List.map_append] at reassembles
  rcases eventsPerRead_last ready beforeLast reassembles with
    refused | ⟨before, next, readyLast, read, same⟩
  · rw [callbacks, notSingle] at refused
    rcases List.mem_cons.mp refused with impossible | later
    · cases impossible
    · exact forceClose_not_mem_laterCallbacks _ _ later
  · have delivered : message.callbacks.getLast? = some [.onMessage message.payload] := by
      rw [callbacks, List.getLast?_cons, laterCallbacks_last several]
      rfl
    rw [delivered] at same
    exact onRead_finalContinuation readyLast last message.payload read (Option.some.inj same).symm

/-- A message in one frame is delivered when the frame keeps below the size limit. -/
theorem reassembles_single {platform : Platform} {session : MyWebSocketSession}
    (ready : session.Ready) (nothingPending : session.parsedData = []) {message : FragmentedMessage}
    (single : message.others = []) :
    session.Reassembles platform message ↔
      (message.first.frame true message.kind.opcode).encode.length <
        MAX_WEBSOCKET_CLIENT_PACKAGE_LENGTH := by
  have frames : message.frames = [message.first.frame true message.kind.opcode] := by
    simp [FragmentedMessage.frames, single, laterFrames]
  have callbacks : message.callbacks = [[.onMessage message.first.payload]] := by
    simp [FragmentedMessage.callbacks, single, laterCallbacks, payload]
  unfold Reassembles
  rw [frames, callbacks]
  simp only [List.map_cons, List.map_nil, eventsPerRead, List.nil_append]
  constructor
  · intro reassembles
    by_contra large
    rw [onRead_upgraded platform ready.upgraded, if_pos (by omega)] at reassembles
    cases reassembles
  · intro limit
    rcases onRead_whole platform ready nothingPending message.first message.kind limit with
      ⟨next, read, events⟩
    rw [read]
    simp [events]

/-- A message reaches the application, frame for frame with its control frames, when it
is one frame below the size limit; and only then, unless a frame before the last has no
payload, of which bytes stay in the buffer and are read again. -/
theorem reassembles_of_single (platform : Platform) {session : MyWebSocketSession}
    (ready : session.Ready) (nothingPending : session.parsedData = [])
    (message : FragmentedMessage) :
    (message.others = [] ∧ (message.first.frame true message.kind.opcode).encode.length <
        MAX_WEBSOCKET_CLIENT_PACKAGE_LENGTH →
      session.Reassembles platform message) ∧
    ((∀ frame ∈ message.frames.dropLast, frame.payload ≠ []) →
      (session.Reassembles platform message ↔
        message.others = [] ∧ (message.first.frame true message.kind.opcode).encode.length <
          MAX_WEBSOCKET_CLIENT_PACKAGE_LENGTH)) := by
  have sufficient : message.others = [] ∧
      (message.first.frame true message.kind.opcode).encode.length <
        MAX_WEBSOCKET_CLIENT_PACKAGE_LENGTH → session.Reassembles platform message := by
    rintro ⟨single, short⟩
    exact (reassembles_single ready nothingPending single).mpr short
  refine ⟨sufficient, ?_⟩
  intro nonempty
  constructor
  · intro reassembles
    by_cases single : message.others = []
    · exact ⟨single, (reassembles_single ready nothingPending single).mp reassembles⟩
    · exact absurd reassembles (not_reassembles ready single nonempty)
  · exact sufficient

def upgradedSession : MyWebSocketSession := { create with updateToWebSocket := true }

/-- One text frame. -/
theorem reassembles_of_single_hello :
    upgradedSession.Reassembles .still
      ⟨.text, ⟨⟨[1, 2, 3, 4], rfl⟩, ascii "Hello", by decide⟩, []⟩ :=
  (reassembles_of_single .still ⟨rfl, rfl⟩ rfl
    ⟨.text, ⟨⟨[1, 2, 3, 4], rfl⟩, ascii "Hello", by decide⟩, []⟩).1 (by decide +kernel)

/-- "Hel" and "lo" with a ping between them: the second fragment is not delivered. -/
theorem two_fragments_not_reassembled :
    ¬ upgradedSession.Reassembles .still
      ⟨.text, ⟨⟨[1, 2, 3, 4], rfl⟩, ascii "Hel", by decide⟩,
        [([⟨.ping, ⟨[5, 6, 7, 8], rfl⟩, ascii "?", by decide⟩],
          ⟨⟨[1, 2, 3, 4], rfl⟩, ascii "lo", by decide⟩)]⟩ := by
  unfold Reassembles
  decide +kernel

/-- After an empty first fragment the bytes left of its key can read as a text frame. -/
example : upgradedSession.eventsPerRead .still []
    ((FragmentedMessage.mk .text ⟨⟨[0, 0, 0x81, 0x82], rfl⟩, [], by decide⟩
      [([], ⟨⟨[0, 0, 0xc8, 0xeb], rfl⟩, ascii "Hi", by decide⟩)]).frames.map
        Rfc6455.Frame.encode) = some [[], [.onMessage (ascii "Hi")]] := by
  decide +kernel

end FragmentedMessage

end MyBookSources.WebSocket
