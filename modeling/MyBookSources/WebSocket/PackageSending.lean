import MyBookSources.WebSocket.PackageDecoding

/-! # Sending packages

Without compression, what `send` passes on is the frame of its payload and opcode, so the
packages of any calls, one after another, decode to these frames.
-/

namespace MyBookSources.WebSocket

/-- The arguments of a call of `send`. A string is shorter than `2 ^ 63` bytes. -/
structure SendCall where
  opcode : Fin 16
  payload : Bytes
  short : payload.length < 2 ^ 63

namespace SendCall

def frame (call : SendCall) : Rfc6455.Frame where
  fin := true
  rsv := Rfc6455.noExtension
  opcode := call.opcode
  maskingKey := none
  payload := call.payload
  short := call.short

end SendCall

/-- The size of the shortest header for a payload that is not masked. -/
def shortestHeader (length : Nat) : Nat :=
  if length ≤ 125 then 2 else if length ≤ 65535 then 4 else 10

namespace MyWebSocketSession

variable (platform : Platform) {session : MyWebSocketSession}

theorem flags_eq (opcode : Fin 16) :
    (0x80 ||| UInt8.ofNat opcode ||| 0 : Byte) = UInt8.ofNat (128 + opcode) := by
  revert opcode
  decide

theorem packageHeader_eq (call : SendCall) :
    packageHeader false (UInt8.ofNat call.opcode) call.payload.length =
      call.frame.firstByte :: call.frame.secondByte ::
        Rfc6455.extendedLength call.payload.length := by
  have first : call.frame.firstByte = UInt8.ofNat (128 + call.opcode) := by
    simp [Rfc6455.Frame.firstByte, SendCall.frame]
  have second : call.frame.secondByte =
      UInt8.ofNat (Rfc6455.lengthCode call.payload.length) := by
    simp [Rfc6455.Frame.secondByte, SendCall.frame]
  rw [first, second, ← flags_eq]
  simp only [packageHeader, Rfc6455.lengthCode, Rfc6455.extendedLength, Bool.false_eq_true,
    if_false]
  split
  · rfl
  · split
    · next medium =>
        rw [if_pos (by omega), if_pos (by omega)]
        rfl
    · next large =>
        rw [if_neg (by omega), if_neg (by omega)]
        rfl

/-- `send` writes the frame of its arguments. -/
theorem send_eq_encode (uncompressed : session.clientCompressed = false) (call : SendCall) :
    session.send platform call.payload (UInt8.ofNat call.opcode) = some call.frame.encode := by
  have body : call.frame.body = call.payload := rfl
  have noKey : call.frame.keyBytes = [] := rfl
  simp only [send, uncompressed, Bool.false_eq_true, false_and, if_false, Option.bind_eq_bind,
    Option.bind_some, packageHeader_eq, Rfc6455.Frame.encode, body, noKey]
  simp [SendCall.frame]

theorem length_encode_frame (call : SendCall) :
    call.frame.encode.length = shortestHeader call.payload.length + call.payload.length := by
  have noKey : call.frame.keyBytes = [] := rfl
  have payload : call.frame.payload = call.payload := rfl
  rw [Rfc6455.Frame.length_encode, noKey, payload]
  by_cases short : call.payload.length < 126
  · have least : call.payload.length ≤ 125 := by omega
    simp [Rfc6455.extendedLength, shortestHeader, short, least]
  · have notLeast : ¬ call.payload.length ≤ 125 := by omega
    by_cases medium : call.payload.length < 2 ^ 16
    · have within : call.payload.length ≤ 65535 := by omega
      simp only [Rfc6455.extendedLength, shortestHeader, short, notLeast, medium, within, if_true,
        if_false, BigEndian.length_encode, List.length_nil]
    · have above : ¬ call.payload.length ≤ 65535 := by omega
      simp only [Rfc6455.extendedLength, shortestHeader, short, notLeast, medium, above, if_false,
        BigEndian.length_encode, List.length_nil]

/-- The packages of any calls decode to the frames of the calls, with no bytes left over,
and each has the shortest header that its payload can have. -/
theorem sent_packages_decode (uncompressed : session.clientCompressed = false)
    (calls : List SendCall) :
    ∃ packages : List Bytes,
      calls.mapM (fun call => session.send platform call.payload (UInt8.ofNat call.opcode)) =
        some packages ∧
      Rfc6455.decodeAll packages.flatten = some (calls.map SendCall.frame) ∧
      packages.map List.length =
        calls.map fun call => shortestHeader call.payload.length + call.payload.length := by
  refine ⟨calls.map fun call => call.frame.encode, ?_, ?_, ?_⟩
  · induction calls with
    | nil => rfl
    | cons call calls induction =>
        rw [List.mapM_cons, send_eq_encode platform uncompressed, induction]
        rfl
  · have frames := Rfc6455.decodeAll_encode (calls.map SendCall.frame)
    rw [List.flatMap_map] at frames
    exact frames
  · rw [List.map_map]
    apply List.map_congr_left
    intro call _
    exact length_encode_frame call

/-- A text and an empty pong. -/
theorem sent_packages_decode_two :
    ∃ packages : List Bytes,
      [SendCall.mk 1 (ascii "Hello") (by decide), SendCall.mk 10 [] (by decide)].mapM
        (fun call => create.send .still call.payload (UInt8.ofNat call.opcode)) =
        some packages ∧
      Rfc6455.decodeAll packages.flatten = some
        ([SendCall.mk 1 (ascii "Hello") (by decide), SendCall.mk 10 [] (by decide)].map
          SendCall.frame) ∧
      packages.map List.length =
        [SendCall.mk 1 (ascii "Hello") (by decide), SendCall.mk 10 [] (by decide)].map
          fun call => shortestHeader call.payload.length + call.payload.length :=
  sent_packages_decode .still rfl _

end MyWebSocketSession

end MyBookSources.WebSocket
