import MyBookSources.WebSocket.PackageDecoding

/-! # One frame in the buffer

What `decodePackage` does with a masked frame that is all there, whatever stands behind it, and
what `onRead` does with a frame of which a part is missing. The number of unread bytes is compared
as an `int32_t`, so the bytes behind a frame matter once there are two gigabytes of them.
-/

namespace MyBookSources.WebSocket

namespace MyWebSocketSession

theorem decodePackage_append_of_enough (platform : Platform) (session : MyWebSocketSession)
    {unread : Bytes} (received : 2 ≤ unread.length) (small : unread.length < 2 ^ 31)
    {later : Bytes} (enough : (unread.length : Int) ≤ int32 (unread ++ later).length)
    {headerSize bodyLength : Nat} (known : packageLength unread = .known headerSize bodyLength)
    (complete : headerSize + bodyLength ≤ unread.length) :
    session.decodePackage platform (unread ++ later) =
      let merged := session.mergePackage platform (FIN unread) (opcode unread)
        (payloadData unread headerSize bodyLength)
      some (merged.1, ⟨merged.2.1, (unread ++ later).drop (headerSize + bodyLength),
        merged.2.2⟩) := by
  have determined : packageLength unread ≠ .incomplete := by
    rw [known]
    intro same
    cases same
  have grown := packageLength_append_of_enough received small enough determined
  have fits : ¬ 2 ^ 63 ≤ headerSize + bodyLength := by omega
  have there : ¬ int32 (unread ++ later).length < headerSize + bodyLength := by omega
  have header := (header_of_known small known).1
  simp only [decodePackage, grown, known, fits, there, if_false, FIN_append received,
    opcode_append received, payloadData_append received later header complete]

theorem package_of_taken {platform : Platform} {session : MyWebSocketSession} {unread : Bytes}
    {decoded : Bool} {progress : Progress}
    (decode : session.decodePackage platform unread = some (decoded, progress))
    (taken : progress.unread ≠ unread) :
    ∃ headerSize bodyLength, packageLength unread = .known headerSize bodyLength ∧
      ((headerSize + bodyLength : Nat) : Int) ≤ int32 unread.length ∧
      progress.unread = unread.drop (headerSize + bodyLength) := by
  unfold decodePackage at decode
  split at decode
  · cases decode
    exact absurd rfl taken
  · cases decode
    exact absurd rfl taken
  · next headerSize bodyLength known =>
    split at decode
    · cases decode
    · split at decode
      · cases decode
        exact absurd rfl taken
      · next covered =>
        cases decode
        exact ⟨headerSize, bodyLength, known, by omega, rfl⟩

/-! ## A frame that is all there -/

/-- The bytes behind the frame are left and its text is merged: with FIN set it is handed to
`processPackage` behind the pending data. -/
def frameTaken (platform : Platform) (session : MyWebSocketSession) (frame : Rfc6455.Frame)
    (text rest : Bytes) : Progress :=
  let merged := { session with parsedData := session.parsedData ++ text }
  if frame.fin then
    ⟨{ merged with parsedData := [] }, rest,
      (merged.processPackage platform merged.parsedData (.ofValue frame.opcode)).2⟩
  else ⟨merged, rest, []⟩

theorem processPackage_accepts (platform : Platform) {session : MyWebSocketSession}
    (uncompressed : session.clientCompressed = false) (data : Bytes) {code : MyOpCode}
    (goesOn : code ≠ .close) : (session.processPackage platform data code).1 = true := by
  cases code with
  | close => exact absurd rfl goesOn
  | textFrame | binaryFrame =>
      rw [processPackage, uncompressed]
      rfl
  | _ => rfl

theorem mergePackage_accepts (platform : Platform) {session : MyWebSocketSession}
    (uncompressed : session.clientCompressed = false) {frame : Rfc6455.Frame}
    (goesOn : MyOpCode.ofValue frame.opcode ≠ .close) (text rest : Bytes) :
    session.mergePackage platform frame.fin (.ofValue frame.opcode) text =
      (true, (session.frameTaken platform frame text rest).session,
        (session.frameTaken platform frame text rest).events) := by
  unfold mergePackage frameTaken
  cases frame.fin with
  | false => rfl
  | true =>
      let merged := { session with parsedData := session.parsedData ++ text }
      have accepted : (merged.processPackage platform merged.parsedData
          (.ofValue frame.opcode)).1 = true :=
        processPackage_accepts platform uncompressed _ goesOn
      simp only [if_true]
      split
      · next refused =>
        rw [refused] at accepted
        cases accepted
      · next done =>
        simp only [done]

theorem unread_frameTaken (platform : Platform) (session : MyWebSocketSession)
    (frame : Rfc6455.Frame) (text rest : Bytes) :
    (session.frameTaken platform frame text rest).unread = rest := by
  unfold frameTaken
  cases frame.fin <;> rfl

theorem mask_body {frame : Rfc6455.Frame} {key : Rfc6455.MaskingKey}
    (masked : frame.maskingKey = some key) :
    Rfc6455.mask key.bytes frame.body = frame.payload := by
  rw [Rfc6455.Frame.body, masked]
  exact Rfc6455.mask_mask key.bytes frame.payload

/-- A masked frame is taken as it stands, with each octet of its body combined with an octet of
the key, exactly if it has a payload and the count of unread bytes covers it. -/
theorem decodePackage_takes_frame_iff (platform : Platform) {session : MyWebSocketSession}
    (uncompressed : session.clientCompressed = false) (frame : Rfc6455.Frame)
    {key : Rfc6455.MaskingKey} (masked : frame.maskingKey = some key)
    (goesOn : MyOpCode.ofValue frame.opcode ≠ .close)
    (below : frame.encode.length < MAX_WEBSOCKET_CLIENT_PACKAGE_LENGTH) (rest : Bytes) :
    session.decodePackage platform (frame.encode ++ rest) =
        some (true, session.frameTaken platform frame (Rfc6455.mask key.bytes frame.body) rest) ↔
      frame.payload ≠ [] ∧ (frame.encode.length : Int) ≤ int32 (frame.encode ++ rest).length := by
  have small : frame.encode.length < 2 ^ 31 := below.trans (by decide)
  have width := frame.length_encode
  have keyLength := frame.length_keyBytes (by rw [masked]; rfl)
  have left := unread_frameTaken platform session frame (Rfc6455.mask key.bytes frame.body) rest
  constructor
  · intro taken
    have sum : (frame.encode ++ rest).length = frame.encode.length + rest.length :=
      List.length_append
    have shorter : rest ≠ frame.encode ++ rest := by
      intro same
      have lengths := congrArg List.length same
      omega
    rcases package_of_taken taken (by rwa [left]) with
      ⟨headerSize, bodyLength, known, covered, dropped⟩
    rw [left] at dropped
    have lengths := congrArg List.length dropped
    have total := int32_le (frame.encode ++ rest).length
    rw [List.length_drop] at lengths
    have package : headerSize + bodyLength = frame.encode.length := by omega
    rw [package] at covered
    refine ⟨?_, covered⟩
    intro empty
    rw [packageLength_encode_empty frame rest empty] at known
    injection known with header body
    omega
  · rintro ⟨nonempty, enough⟩
    have known := packageLength_encode frame [] (by simpa using small) nonempty
    have fin := FIN_encode frame []
    have code := opcode_encode frame []
    have data := payloadData_encode frame [] (by simpa using small) nonempty
    have sum := length_encode_append frame []
    rw [List.append_nil] at known fin code data sum
    rw [List.length_nil, Nat.add_zero] at sum
    have decoded := decodePackage_append_of_enough platform session (by omega) small enough known
      sum.ge
    rw [← sum, List.drop_left, fin, code, data, ← mask_body masked,
      mergePackage_accepts platform uncompressed goesOn _ rest] at decoded
    rw [decoded]
    exact congrArg (fun unread => some (true, (⟨_, unread, _⟩ : Progress))) left.symm

def helloFrame : Rfc6455.Frame where
  fin := true
  rsv := Rfc6455.noExtension
  opcode := MyOpCode.textFrame.value
  maskingKey := some ⟨[0x37, 0xfa, 0x21, 0x3d], rfl⟩
  payload := ascii "Hello"
  short := by decide

theorem decodePackage_takes_frame_iff_hello :
    create.decodePackage .still (helloFrame.encode ++ [0x81]) =
      some (true, ⟨create, [0x81], [.onMessage (ascii "Hello")]⟩) := by
  have taken := (@decodePackage_takes_frame_iff .still create rfl helloFrame _ rfl (by decide)
    (by decide) [0x81]).mpr ⟨by decide, by decide⟩
  rw [taken]
  rfl

def emptyPing : Rfc6455.Frame where
  fin := true
  rsv := Rfc6455.noExtension
  opcode := MyOpCode.ping.value
  maskingKey := some ⟨[0x37, 0xfa, 0x21, 0x3d], rfl⟩
  payload := []
  short := by decide

/-- Half of the key of an empty frame is left in front of what follows. -/
theorem empty_frame_leaves_key :
    (create.decodePackage .still (emptyPing.encode ++ [0x81])).map
        (fun result => (result.1, result.2.unread)) = some (true, [0x21, 0x3d, 0x81]) ∧
      create.decodePackage .still (emptyPing.encode ++ [0x81]) ≠
        some (true, create.frameTaken .still emptyPing [] [0x81]) := by
  have left : (create.decodePackage .still (emptyPing.encode ++ [0x81])).map
      (fun result => (result.1, result.2.unread)) = some (true, [0x21, 0x3d, 0x81]) := by decide
  refine ⟨left, ?_⟩
  intro taken
  rw [taken] at left
  cases left

/-! ## A frame of which a part is missing -/

theorem decodePackage_front (platform : Platform) (session : MyWebSocketSession)
    (frame : Rfc6455.Frame) (small : frame.encode.length < 2 ^ 31) (nonempty : frame.payload ≠ [])
    {part rest : Bytes} (received : 2 ≤ part.length) (cut : part ++ rest = frame.encode)
    (missing : rest ≠ []) :
    session.decodePackage platform part = some (true, ⟨session, part, []⟩) := by
  have whole : frame.encode.length = part.length + rest.length := by
    rw [← cut, List.length_append]
  have behind : 0 < rest.length := List.length_pos_iff.mpr missing
  by_cases complete : packageLength part = .incomplete
  · rw [decodePackage, complete]
  · have known := packageLength_encode frame [] (by simpa using small) nonempty
    have sum := length_encode_append frame []
    rw [List.append_nil] at known sum
    rw [List.length_nil, Nat.add_zero] at sum
    rw [← cut, packageLength_append received (by rwa [cut]) complete] at known
    exact decodePackage_missing known platform session (by omega) (by omega) (by omega)

/-- A call of `onRead` does nothing while a part of the frame is missing. -/
theorem onRead_front (platform : Platform) {session : MyWebSocketSession}
    (upgraded : session.updateToWebSocket = true) (frame : Rfc6455.Frame)
    (masked : frame.maskingKey.isSome = true)
    (below : frame.encode.length < MAX_WEBSOCKET_CLIENT_PACKAGE_LENGTH) {part : Bytes}
    (front : part <+: frame.encode) (strict : part ≠ frame.encode) :
    session.onRead platform part = some ⟨session, part, []⟩ := by
  rcases front with ⟨rest, cut⟩
  have missing : rest ≠ [] := by
    rintro rfl
    rw [List.append_nil] at cut
    exact strict cut
  have behind : 0 < rest.length := List.length_pos_iff.mpr missing
  have whole : frame.encode.length = part.length + rest.length := by
    rw [← cut, List.length_append]
  rw [onRead_upgraded platform upgraded, if_neg (by omega)]
  split
  · rfl
  · next enough =>
    have least : MIN_WEBSOCKET_PACKAGE_HEADER_LENGTH = 6 := rfl
    have nonempty : frame.payload ≠ [] := by
      intro empty
      have width := frame.length_encode
      rw [frame.length_keyBytes masked, empty] at width
      have code : (Rfc6455.extendedLength ([] : Bytes).length).length = 0 := rfl
      rw [code, List.length_nil] at width
      omega
    rw [decodePackage_front platform session frame (below.trans (by decide)) nonempty (by omega) cut
      missing]
    rfl

/-- The front of a text frame that ends within its payload. -/
theorem onRead_front_hello :
    ({ create with updateToWebSocket := true }).onRead .still (helloFrame.encode.take 8) =
      some ⟨{ create with updateToWebSocket := true }, helloFrame.encode.take 8, []⟩ :=
  onRead_front .still rfl helloFrame rfl (by decide) (List.take_prefix _ _) (by decide)

end MyWebSocketSession

end MyBookSources.WebSocket
