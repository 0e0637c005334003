import MyBookSources.Foundation.Rfc6455
import MyBookSources.WebSocket.MyWebSocketSession

/-! # Decoding one package

What `decodePackage` finds in a package depends on the bytes of that package alone, and
on a masked frame with a payload it finds the frame.
-/

namespace MyBookSources.WebSocket

namespace MyWebSocketSession

/-! ## The copied header -/

theorem take_pBytes {unread : Bytes} {count : Nat} (header : count ≤ MAX_HEADER_LENGTH)
    (received : count ≤ unread.length) : (pBytes unread).take count = unread.take count := by
  rw [pBytes, List.take_take, Nat.min_eq_left header, List.take_append_of_le_length received]

theorem slice_pBytes {unread : Bytes} {last : Nat} (header : last ≤ MAX_HEADER_LENGTH)
    (received : last ≤ unread.length) (first : Nat) :
    (pBytes unread).slice first last = unread.slice first last :=
  Bytes.slice_eq_of_take_eq (take_pBytes header received) first

theorem slice_append_left {unread : Bytes} {last : Nat} (received : last ≤ unread.length)
    (first : Nat) (later : Bytes) : (unread ++ later).slice first last = unread.slice first last :=
  Bytes.slice_eq_of_take_eq (List.take_append_of_le_length received) first

theorem slice_pBytes_append {unread : Bytes} {last : Nat} (header : last ≤ MAX_HEADER_LENGTH)
    (received : last ≤ unread.length) (first : Nat) (later : Bytes) :
    (pBytes (unread ++ later)).slice first last = (pBytes unread).slice first last := by
  have longer : last ≤ (unread ++ later).length := by
    rw [List.length_append]
    omega
  rw [slice_pBytes header longer, slice_pBytes header received, slice_append_left received]

@[simp] theorem flagsByte_cons (first : Byte) (rest : Bytes) :
    flagsByte (first :: rest) = first := by
  simp [flagsByte, pBytes, MAX_HEADER_LENGTH]

@[simp] theorem lengthByte_cons (first second : Byte) (rest : Bytes) :
    lengthByte (first :: second :: rest) = second := by
  simp [lengthByte, pBytes, MAX_HEADER_LENGTH]

theorem flags_append {unread : Bytes} (received : 2 ≤ unread.length) (later : Bytes) :
    flagsByte (unread ++ later) = flagsByte unread ∧
      lengthByte (unread ++ later) = lengthByte unread := by
  rcases unread with _ | ⟨first, _ | ⟨second, rest⟩⟩
  · cases received
  · simp at received
  · simp

theorem FIN_append {unread : Bytes} (received : 2 ≤ unread.length) (later : Bytes) :
    FIN (unread ++ later) = FIN unread := by
  rw [FIN, FIN, (flags_append received later).1]

theorem opcode_append {unread : Bytes} (received : 2 ≤ unread.length) (later : Bytes) :
    opcode (unread ++ later) = opcode unread := by
  simp only [opcode, (flags_append received later).1]

theorem mask_append {unread : Bytes} (received : 2 ≤ unread.length) (later : Bytes) :
    mask (unread ++ later) = mask unread := by
  rw [mask, mask, (flags_append received later).2]

theorem payloadLength_append {unread : Bytes} (received : 2 ≤ unread.length) (later : Bytes) :
    payloadLength (unread ++ later) = payloadLength unread := by
  rw [payloadLength, payloadLength, (flags_append received later).2]

theorem payloadLength_lt (unread : Bytes) : payloadLength unread < 128 :=
  Nat.mod_lt _ (by omega)

/-- The masking key's share of `headerSize`. -/
def keySize (unread : Bytes) : Nat := if mask unread then 4 else 0

theorem keySize_le (unread : Bytes) : keySize unread ≤ 4 := by
  unfold keySize
  split <;> omega

theorem keySize_append {unread : Bytes} (received : 2 ≤ unread.length) (later : Bytes) :
    keySize (unread ++ later) = keySize unread := by
  rw [keySize, keySize, mask_append received]

theorem decode_slice_lt (bytes : Bytes) (first last : Nat) :
    BigEndian.decode (bytes.slice first last) < 256 ^ (last - first) := by
  apply (BigEndian.decode_lt _).trans_le
  apply Nat.pow_le_pow_right (by omega)
  rw [Bytes.slice, List.length_drop, List.length_take]
  omega

section

variable {unread : Bytes}

theorem packageLength_two_of_count (length : payloadLength unread = 126) :
    packageLength unread =
      if int32 unread.length < keySize unread + 4 then .incomplete
      else if BigEndian.decode ((pBytes unread).slice 2 4) < 126 then .illegal
      else .known (keySize unread + 4) (BigEndian.decode ((pBytes unread).slice 2 4)) := by
  have bound : BigEndian.decode ((pBytes unread).slice 2 4) < 256 ^ 2 :=
    decode_slice_lt _ 2 4
  have medium : ¬ 65535 < BigEndian.decode ((pBytes unread).slice 2 4) := by omega
  simp only [packageLength, length, medium, or_false, ← keySize.eq_def]
  norm_cast

theorem packageLength_eight_of_count (length : payloadLength unread = 127) :
    packageLength unread =
      if int32 unread.length < keySize unread + 10 then .incomplete
      else if int64 (BigEndian.decode ((pBytes unread).slice 2 10)) ≤ 65535 then .illegal
      else .known (keySize unread + 10)
        (int64 (BigEndian.decode ((pBytes unread).slice 2 10))).toNat := by
  simp only [packageLength, length, ← keySize.eq_def]
  norm_cast

variable (small : unread.length < 2 ^ 31)

include small

theorem packageLength_two (length : payloadLength unread = 126) :
    packageLength unread =
      if unread.length < keySize unread + 4 then .incomplete
      else if BigEndian.decode ((pBytes unread).slice 2 4) < 126 then .illegal
      else .known (keySize unread + 4) (BigEndian.decode ((pBytes unread).slice 2 4)) := by
  rw [packageLength_two_of_count length, int32_of_lt small]
  norm_cast

theorem packageLength_eight (length : payloadLength unread = 127) :
    packageLength unread =
      if unread.length < keySize unread + 10 then .incomplete
      else if int64 (BigEndian.decode ((pBytes unread).slice 2 10)) ≤ 65535 then .illegal
      else .known (keySize unread + 10)
        (int64 (BigEndian.decode ((pBytes unread).slice 2 10))).toNat := by
  rw [packageLength_eight_of_count length, int32_of_lt small]
  norm_cast

end

theorem packageLength_short {unread : Bytes} (short : payloadLength unread < 126) :
    packageLength unread =
      .known (if payloadLength unread = 0 then keySize unread else keySize unread + 2)
        (payloadLength unread) := by
  rcases Nat.eq_zero_or_pos (payloadLength unread) with empty | some
  · simp [packageLength, empty, keySize]
  · have within : payloadLength unread ≤ 125 := by omega
    have nonzero : payloadLength unread ≠ 0 := by omega
    simp only [packageLength, some, within, nonzero, and_self, if_true, if_false, keySize]

theorem packageLength_complete {unread : Bytes} (small : unread.length < 2 ^ 31)
    (copied : MAX_HEADER_LENGTH ≤ unread.length) : packageLength unread ≠ .incomplete := by
  unfold MAX_HEADER_LENGTH at copied
  have key := keySize_le unread
  have longest := payloadLength_lt unread
  intro incomplete
  rcases Nat.lt_or_ge (payloadLength unread) 126 with short | long
  · rw [packageLength_short short] at incomplete
    cases incomplete
  · rcases Nat.eq_or_lt_of_le long with two | eight
    · rw [packageLength_two small two.symm, if_neg (by omega)] at incomplete
      split at incomplete <;> cases incomplete
    · rw [packageLength_eight small (by omega), if_neg (by omega)] at incomplete
      split at incomplete <;> cases incomplete

theorem packageLength_append_of_enough {unread : Bytes} (received : 2 ≤ unread.length)
    (small : unread.length < 2 ^ 31) {later : Bytes}
    (enough : (unread.length : Int) ≤ int32 (unread ++ later).length)
    (complete : packageLength unread ≠ .incomplete) :
    packageLength (unread ++ later) = packageLength unread := by
  have length := payloadLength_append received later
  have key := keySize_append received later
  have longest := payloadLength_lt unread
  rcases Nat.lt_or_ge (payloadLength unread) 126 with short | long
  · rw [packageLength_short short, packageLength_short (by omega), length, key]
  · rcases Nat.eq_or_lt_of_le long with two | eight
    · rw [packageLength_two small two.symm] at complete ⊢
      have header : ¬ unread.length < keySize unread + 4 := by
        intro missing
        exact complete (if_pos missing)
      rw [packageLength_two_of_count (by omega), key, slice_pBytes_append (by decide) (by omega),
        if_neg header, if_neg (by omega)]
    · rw [packageLength_eight small (by omega)] at complete ⊢
      have header : ¬ unread.length < keySize unread + 10 := by
        intro missing
        exact complete (if_pos missing)
      rw [packageLength_eight_of_count (by omega), key, slice_pBytes_append (by decide) (by omega),
        if_neg header, if_neg (by omega)]

theorem packageLength_append {unread : Bytes} (received : 2 ≤ unread.length) {later : Bytes}
    (small : (unread ++ later).length < 2 ^ 31) (complete : packageLength unread ≠ .incomplete) :
    packageLength (unread ++ later) = packageLength unread := by
  have sum : (unread ++ later).length = unread.length + later.length := List.length_append
  apply packageLength_append_of_enough received (by omega) _ complete
  rw [int32_of_lt small]
  omega

theorem header_of_known {unread : Bytes} {headerSize bodyLength : Nat}
    (small : unread.length < 2 ^ 31)
    (known : packageLength unread = .known headerSize bodyLength) :
    headerSize ≤ MAX_HEADER_LENGTH ∧ keySize unread ≤ headerSize := by
  have key := keySize_le unread
  have longest := payloadLength_lt unread
  rcases Nat.lt_or_ge (payloadLength unread) 126 with short | long
  · rw [packageLength_short short] at known
    injection known with header _
    rw [← header, MAX_HEADER_LENGTH]
    split <;> omega
  · rcases Nat.eq_or_lt_of_le long with two | eight
    · rw [packageLength_two small two.symm] at known
      split at known
      · cases known
      · split at known
        · cases known
        · injection known with header _
          rw [← header, MAX_HEADER_LENGTH]
          omega
    · rw [packageLength_eight small (by omega)] at known
      split at known
      · cases known
      · split at known
        · cases known
        · injection known with header _
          rw [← header, MAX_HEADER_LENGTH]
          omega

theorem payloadData_append {unread : Bytes} (received : 2 ≤ unread.length) (later : Bytes)
    {headerSize bodyLength : Nat} (header : headerSize ≤ MAX_HEADER_LENGTH)
    (complete : headerSize + bodyLength ≤ unread.length) :
    payloadData (unread ++ later) headerSize bodyLength =
      payloadData unread headerSize bodyLength := by
  simp only [payloadData, mask_append received, slice_append_left complete,
    slice_pBytes_append header (show headerSize ≤ unread.length by omega)]

/-! ## One call -/

theorem mergePackage_session (platform : Platform) (session : MyWebSocketSession) (fin : Bool)
    (opcode : MyOpCode) (data : Bytes) :
    ∃ pending, (session.mergePackage platform fin opcode data).2.1 =
      { session with parsedData := pending } := by
  unfold mergePackage
  dsimp only
  split
  · split
    · exact ⟨_, rfl⟩
    · exact ⟨_, rfl⟩
  · exact ⟨_, rfl⟩

/-- A call that returns has left everything as it was or has taken one package. -/
theorem decodePackage_cases {platform : Platform} {session : MyWebSocketSession} {unread : Bytes}
    {decoded : Bool} {progress : Progress}
    (decode : session.decodePackage platform unread = some (decoded, progress)) :
    progress = ⟨session, unread, []⟩ ∨
      ∃ headerSize bodyLength,
        packageLength unread = .known headerSize bodyLength ∧
        headerSize + bodyLength ≤ unread.length ∧
        (decoded, progress) =
          let merged := session.mergePackage platform (FIN unread) (opcode unread)
            (payloadData unread headerSize bodyLength)
          (merged.1, ⟨merged.2.1, unread.drop (headerSize + bodyLength), merged.2.2⟩) := by
  unfold decodePackage at decode
  split at decode
  · cases decode
    exact .inl rfl
  · cases decode
    exact .inl rfl
  · next headerSize bodyLength known =>
      split at decode
      · cases decode
      · split at decode
        · cases decode
          exact .inl rfl
        · next received =>
            have low := int32_le unread.length
            exact .inr ⟨headerSize, bodyLength, known, by omega, (Option.some.inj decode).symm⟩

section

variable {unread : Bytes} {headerSize bodyLength : Nat}
  (known : packageLength unread = .known headerSize bodyLength)
  (platform : Platform) (session : MyWebSocketSession)

include known

theorem decodePackage_overflow (long : 2 ^ 63 ≤ headerSize + bodyLength) :
    session.decodePackage platform unread = none := by
  simp only [decodePackage, known, long, if_true]

variable (small : unread.length < 2 ^ 31)

include small

theorem decodePackage_missing (fits : headerSize + bodyLength < 2 ^ 63)
    (missing : unread.length < headerSize + bodyLength) :
    session.decodePackage platform unread = some (true, ⟨session, unread, []⟩) := by
  have fits' : ¬ 2 ^ 63 ≤ headerSize + bodyLength := by omega
  have short : int32 unread.length < headerSize + bodyLength := by
    rw [int32_of_lt small]
    omega
  simp only [decodePackage, known, fits', short, if_true, if_false]

theorem decodePackage_received (received : headerSize + bodyLength ≤ unread.length) :
    session.decodePackage platform unread =
      let merged := session.mergePackage platform (FIN unread) (opcode unread)
        (payloadData unread headerSize bodyLength)
      some (merged.1, ⟨merged.2.1, unread.drop (headerSize + bodyLength), merged.2.2⟩) := by
  have fits : ¬ 2 ^ 63 ≤ headerSize + bodyLength := by omega
  have enough : ¬ int32 unread.length < headerSize + bodyLength := by
    rw [int32_of_lt small]
    omega
  simp only [decodePackage, known, fits, enough, if_false]

end

/-! ## Frames -/

theorem slice_middle (front middle back : Bytes) :
    (front ++ (middle ++ back)).slice front.length (front.length + middle.length) = middle := by
  rw [Bytes.slice, ← List.append_assoc, ← List.length_append, List.take_left, List.drop_left]

theorem highBit_eq (byte : Byte) : decide (byte &&& 0x80 ≠ 0) = decide (128 ≤ byte.toNat) := by
  have each : ∀ value : Fin 256,
      decide (UInt8.ofFin value &&& 0x80 ≠ 0) = decide (128 ≤ value.val) := by decide +kernel
  exact each byte.toFin

theorem unmaskData_eq_mask (src maskingKey : Bytes) :
    unmaskData src maskingKey = Rfc6455.mask maskingKey src := rfl

section

variable (frame : Rfc6455.Frame) (rest : Bytes)

theorem flagsByte_encode : flagsByte (frame.encode ++ rest) = frame.firstByte := by
  simp [Rfc6455.Frame.encode]

theorem lengthByte_encode : lengthByte (frame.encode ++ rest) = frame.secondByte := by
  simp [Rfc6455.Frame.encode]

theorem FIN_encode : FIN (frame.encode ++ rest) = frame.fin := by
  have reserved := frame.rsv.isLt
  have code := frame.opcode.isLt
  rw [FIN, highBit_eq, flagsByte_encode, frame.firstByte_toNat]
  cases frame.fin <;> simp <;> omega

theorem opcode_encode : opcode (frame.encode ++ rest) = .ofValue frame.opcode := by
  have code := frame.opcode.isLt
  have value : (flagsByte (frame.encode ++ rest)).toNat % 16 = frame.opcode := by
    rw [flagsByte_encode, frame.firstByte_toNat]
    omega
  simp only [opcode, value]

theorem mask_encode : mask (frame.encode ++ rest) = frame.maskingKey.isSome := by
  have code := Rfc6455.lengthCode_lt frame.payload.length
  rw [mask, highBit_eq, lengthByte_encode, frame.secondByte_toNat]
  cases frame.maskingKey.isSome with
  | false =>
      simp
      omega
  | true => simp

theorem payloadLength_encode :
    payloadLength (frame.encode ++ rest) = Rfc6455.lengthCode frame.payload.length := by
  have code := Rfc6455.lengthCode_lt frame.payload.length
  rw [payloadLength, lengthByte_encode, frame.secondByte_toNat]
  omega

theorem keySize_encode : keySize (frame.encode ++ rest) = frame.keyBytes.length := by
  rw [keySize, mask_encode, Rfc6455.Frame.keyBytes]
  cases frame.maskingKey with
  | none => rfl
  | some key => simp [key.length]

theorem slice_extendedLength :
    (frame.encode ++ rest).slice 2 (2 + (Rfc6455.extendedLength frame.payload.length).length) =
      Rfc6455.extendedLength frame.payload.length := by
  have middle := slice_middle [frame.firstByte, frame.secondByte]
    (Rfc6455.extendedLength frame.payload.length) (frame.keyBytes ++ frame.body ++ rest)
  simpa [Rfc6455.Frame.encode] using middle

def frameHeader : Nat :=
  2 + (Rfc6455.extendedLength frame.payload.length).length + frame.keyBytes.length

theorem length_encode_append : (frame.encode ++ rest).length =
    frameHeader frame + frame.payload.length + rest.length := by
  rw [List.length_append, frame.length_encode, frameHeader]

variable (small : (frame.encode ++ rest).length < 2 ^ 31) (nonempty : frame.payload ≠ [])

include small nonempty

theorem packageLength_encode : packageLength (frame.encode ++ rest) =
    .known (frameHeader frame) frame.payload.length := by
  have positive : 0 < frame.payload.length := List.length_pos_iff.mpr nonempty
  have length := payloadLength_encode frame rest
  have sum := length_encode_append frame rest
  have field := slice_extendedLength frame rest
  have key := keySize_encode frame rest
  have keyLength := keySize_le (frame.encode ++ rest)
  have short := frame.short
  simp only [Rfc6455.lengthCode] at length
  simp only [frameHeader, Rfc6455.extendedLength] at sum field ⊢
  split at length
  · next seven =>
      rw [packageLength_short (by omega), length, key, if_neg (by omega), if_pos seven]
      simp [Nat.add_comm]
  · next notSeven =>
      simp only [if_neg notSeven] at sum field ⊢
      split at length
      · next two =>
          simp only [if_pos two, BigEndian.length_encode] at sum field ⊢
          have value := BigEndian.decode_encode (show frame.payload.length < 256 ^ 2 by omega)
          rw [packageLength_two small length, slice_pBytes (by decide) (by omega), field, value,
            if_neg (by omega), if_neg notSeven, key, Nat.add_comm]
      · next eight =>
          simp only [if_neg eight, BigEndian.length_encode] at sum field ⊢
          have value := BigEndian.decode_encode (show frame.payload.length < 256 ^ 8 by omega)
          rw [packageLength_eight small length, slice_pBytes (by decide) (by omega), field, value,
            int64_of_lt short, if_neg (by omega), if_neg (by omega), key, Nat.add_comm,
            Int.toNat_natCast]

theorem payloadData_encode :
    payloadData (frame.encode ++ rest) (frameHeader frame) frame.payload.length =
      frame.payload := by
  have known := packageLength_encode frame rest small nonempty
  have sum := length_encode_append frame rest
  have header := (header_of_known small known).1
  let flags := frame.firstByte :: frame.secondByte ::
    Rfc6455.extendedLength frame.payload.length
  have flagsLength : flags.length + frame.keyBytes.length = frameHeader frame := by
    simp only [flags, List.length_cons, frameHeader]
    omega
  have body : (frame.encode ++ rest).slice (frameHeader frame)
      (frameHeader frame + frame.payload.length) = frame.body := by
    have middle := slice_middle (flags ++ frame.keyBytes) frame.body rest
    rw [List.length_append, flagsLength, frame.length_body] at middle
    simpa [flags, Rfc6455.Frame.encode] using middle
  have key : (frame.encode ++ rest).slice flags.length (frameHeader frame) =
      frame.keyBytes := by
    have middle := slice_middle flags frame.keyBytes (frame.body ++ rest)
    rw [flagsLength] at middle
    simpa [flags, Rfc6455.Frame.encode] using middle
  rw [payloadData, mask_encode, body, slice_pBytes header (by omega)]
  cases masked : frame.maskingKey with
  | none => simp [Rfc6455.Frame.body, masked]
  | some maskingKey =>
      have keyBytes : frame.keyBytes = maskingKey.bytes := by
        simp [Rfc6455.Frame.keyBytes, masked]
      have four : frameHeader frame - 4 = flags.length := by
        have width := maskingKey.length
        rw [keyBytes] at flagsLength
        omega
      simp [four, key, keyBytes, unmaskData_eq_mask, Rfc6455.Frame.body, masked]

/-- A frame with a payload is taken as it stands, and nothing after it. -/
theorem decodePackage_encode (platform : Platform) (session : MyWebSocketSession) :
    session.decodePackage platform (frame.encode ++ rest) =
      let merged := session.mergePackage platform frame.fin (.ofValue frame.opcode) frame.payload
      some (merged.1, ⟨merged.2.1, rest, merged.2.2⟩) := by
  have known := packageLength_encode frame rest small nonempty
  have sum := length_encode_append frame rest
  have back : (frame.encode ++ rest).drop (frameHeader frame + frame.payload.length) = rest := by
    have width : frame.encode.length = frameHeader frame + frame.payload.length := by
      rw [List.length_append] at sum
      omega
    rw [← width, List.drop_left]
  rw [decodePackage_received known platform session small (by omega), FIN_encode, opcode_encode,
    payloadData_encode frame rest small nonempty, back]

end

theorem packageLength_encode_empty (frame : Rfc6455.Frame) (rest : Bytes)
    (empty : frame.payload = []) :
    packageLength (frame.encode ++ rest) = .known frame.keyBytes.length 0 := by
  have length : payloadLength (frame.encode ++ rest) = 0 := by
    rw [payloadLength_encode, empty]
    rfl
  rw [packageLength_short (by omega), length, keySize_encode, if_pos rfl]

/-- Of a frame without a payload only `headerSize` bytes are taken, which leaves out the
two flag bytes: the last two bytes of its masking key stay in front of `rest`. -/
theorem decodePackage_encode_empty (platform : Platform) (session : MyWebSocketSession)
    (frame : Rfc6455.Frame) (rest : Bytes) (small : (frame.encode ++ rest).length < 2 ^ 31)
    (empty : frame.payload = []) :
    session.decodePackage platform (frame.encode ++ rest) =
      let merged := session.mergePackage platform frame.fin (.ofValue frame.opcode) []
      some (merged.1, ⟨merged.2.1, (frame.encode ++ rest).drop frame.keyBytes.length,
        merged.2.2⟩) := by
  have known := packageLength_encode_empty frame rest empty
  have data : payloadData (frame.encode ++ rest) frame.keyBytes.length 0 = [] := by
    have body : (frame.encode ++ rest).slice frame.keyBytes.length
        (frame.keyBytes.length + 0) = [] := by
      simp [Bytes.slice]
    rw [payloadData, body]
    split <;> rfl
  have received : frame.keyBytes.length + 0 ≤ (frame.encode ++ rest).length := by
    rw [List.length_append, frame.length_encode]
    omega
  rw [decodePackage_received known platform session small received, FIN_encode, opcode_encode,
    data, Nat.add_zero]

/-! ## Reads after the handshake -/

theorem onReadLoop_upgraded (platform : Platform) {session : MyWebSocketSession}
    (upgraded : session.updateToWebSocket = true) (unread : Bytes) (fuel : Nat) :
    session.onReadLoop platform unread (fuel + 1) =
      if MAX_WEBSOCKET_CLIENT_PACKAGE_LENGTH ≤ unread.length then
        some ⟨session, unread, [.forceClose]⟩
      else if unread.length < MIN_WEBSOCKET_PACKAGE_HEADER_LENGTH then
        some ⟨session, unread, []⟩
      else
        (session.decodePackage platform unread).map fun result =>
          { result.2 with
            events := result.2.events ++ if result.1 then [] else [.forceClose] } := by
  have notWaiting : ¬ session.updateToWebSocket = false := by simp [upgraded]
  rw [onReadLoop, if_neg notWaiting]
  split
  · rfl
  · split
    · rfl
    · rcases session.decodePackage platform unread with _ | ⟨_ | _, progress⟩ <;> simp

theorem onRead_upgraded (platform : Platform) {session : MyWebSocketSession}
    (upgraded : session.updateToWebSocket = true) (unread : Bytes) :
    session.onRead platform unread =
      if MAX_WEBSOCKET_CLIENT_PACKAGE_LENGTH ≤ unread.length then
        some ⟨session, unread, [.forceClose]⟩
      else if unread.length < MIN_WEBSOCKET_PACKAGE_HEADER_LENGTH then
        some ⟨session, unread, []⟩
      else
        (session.decodePackage platform unread).map fun result =>
          { result.2 with
            events := result.2.events ++ if result.1 then [] else [.forceClose] } :=
  onReadLoop_upgraded platform upgraded unread 1

theorem onReadLoop_counts {platform : Platform} {fuel : Nat} {session : MyWebSocketSession}
    {unread : Bytes} {next : Progress}
    (returned : session.onReadLoop platform unread fuel = some next) :
    ∃ counts : List Nat, counts.sum ≤ unread.length ∧ next.unread = unread.drop counts.sum := by
  induction fuel generalizing session unread next with
  | zero => cases returned
  | succ fuel induction =>
      have nothing : ∃ counts : List Nat, counts.sum ≤ unread.length ∧
          unread = unread.drop counts.sum := ⟨[], Nat.zero_le _, rfl⟩
      cases upgraded : session.updateToWebSocket with
      | true =>
          rw [onReadLoop_upgraded platform upgraded] at returned
          split at returned
          · cases returned
            exact nothing
          · split at returned
            · cases returned
              exact nothing
            · rcases Option.map_eq_some_iff.mp returned with ⟨⟨decoded, progress⟩, decode, rfl⟩
              rcases decodePackage_cases decode with
                rfl | ⟨headerSize, bodyLength, _, received, taken⟩
              · exact nothing
              · cases taken
                exact ⟨[headerSize, bodyLength], by simpa using received, by simp⟩
      | false =>
          rw [onReadLoop, if_pos upgraded] at returned
          split at returned
          · cases returned
            exact nothing
          · split at returned
            · split at returned <;> cases returned <;> exact nothing
            · next pos found =>
                have request : pos + 4 ≤ unread.length := StringUtil.find_le found
                split at returned
                · cases returned
                · cases returned
                  exact ⟨[pos + 4], by simpa using request, by simp⟩
                · rcases Option.map_eq_some_iff.mp returned with ⟨later, rest, rfl⟩
                  rcases induction rest with ⟨counts, enough, same⟩
                  rw [List.length_drop] at enough
                  refine ⟨(pos + 4) :: counts, ?_, ?_⟩
                  · rw [List.sum_cons]
                    omega
                  · rw [same, List.drop_drop, List.sum_cons]

end MyWebSocketSession

end MyBookSources.WebSocket
