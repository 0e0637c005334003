import MyBookSources.Foundation.Bytes
import Mathlib.Data.List.Basic

/-! # RFC 6455 framing

A reference for the base framing protocol: frames, their encoding in the shortest
length form, and a strict decoder that accepts no other form. Decoding undoes
encoding, for one frame in front of anything and for any sequence of frames.
-/

namespace MyBookSources.Rfc6455

structure MaskingKey where
  bytes : Bytes
  length : bytes.length = 4
  deriving DecidableEq

abbrev noExtension : Fin 8 := 0

/-- Payload lengths have 63 bits. -/
structure Frame where
  fin : Bool
  rsv : Fin 8
  opcode : Fin 16
  maskingKey : Option MaskingKey
  payload : Bytes
  short : payload.length < 2 ^ 63
  deriving DecidableEq

/-- Octet `i` is combined with octet `i mod 4` of the key. -/
def mask (key : Bytes) (data : Bytes) : Bytes :=
  data.mapIdx fun index byte => byte ^^^ key.getD (index % 4) 0

@[simp] theorem length_mask (key data : Bytes) : (mask key data).length = data.length := by
  simp [mask]

@[simp] theorem mask_mask (key data : Bytes) : mask key (mask key data) = data := by
  apply List.ext_getElem
  · simp
  · intro index left right
    simp only [mask, List.getElem_mapIdx, UInt8.xor_assoc, UInt8.xor_self, UInt8.xor_zero]

/-! ## Encoding -/

def lengthCode (length : Nat) : Nat :=
  if length < 126 then length else if length < 2 ^ 16 then 126 else 127

def extendedLength (length : Nat) : Bytes :=
  if length < 126 then []
  else if length < 2 ^ 16 then BigEndian.encode 2 length
  else BigEndian.encode 8 length

namespace Frame

variable (frame : Frame)

def firstByte : Byte :=
  UInt8.ofNat (128 * frame.fin.toNat + 16 * frame.rsv + frame.opcode)

def secondByte : Byte :=
  UInt8.ofNat (128 * frame.maskingKey.isSome.toNat + lengthCode frame.payload.length)

def keyBytes : Bytes :=
  match frame.maskingKey with
  | none => []
  | some key => key.bytes

def body : Bytes :=
  match frame.maskingKey with
  | none => frame.payload
  | some key => mask key.bytes frame.payload

def encode : Bytes :=
  frame.firstByte :: frame.secondByte ::
    (extendedLength frame.payload.length ++ frame.keyBytes ++ frame.body)

end Frame

/-! ## Decoding -/

/-- The first `count` bytes and the others, when there are that many. -/
def split (count : Nat) (bytes : Bytes) : Option (Bytes × Bytes) :=
  if count ≤ bytes.length then some (bytes.take count, bytes.drop count) else none

theorem split_append {front rest : Bytes} {count : Nat} (length : front.length = count) :
    split count (front ++ rest) = some (front, rest) := by
  rw [← length]
  simp [split]

/-- A payload length in its shortest form, and the bytes after it. -/
def decodeLength (code : Nat) (bytes : Bytes) : Option (Nat × Bytes) :=
  if code < 126 then some (code, bytes)
  else if code = 126 then do
    let (front, rest) ← split 2 bytes
    if BigEndian.decode front < 126 then none else some (BigEndian.decode front, rest)
  else do
    let (front, rest) ← split 8 bytes
    if BigEndian.decode front < 2 ^ 16 then none else some (BigEndian.decode front, rest)

def decodeKey (masked : Bool) (bytes : Bytes) : Option (Option MaskingKey × Bytes) :=
  if masked then
    if enough : 4 ≤ bytes.length then
      some (some ⟨bytes.take 4, List.length_take_of_le enough⟩, bytes.drop 4)
    else none
  else some (none, bytes)

/-- One frame from the front of `bytes`, and the bytes after it. -/
def decode : Bytes → Option (Frame × Bytes)
  | first :: second :: bytes => do
      let (length, afterLength) ← decodeLength (second.toNat % 128) bytes
      let (key, afterKey) ← decodeKey (128 ≤ second.toNat) afterLength
      let (body, rest) ← split length afterKey
      let payload :=
        match key with
        | none => body
        | some key => mask key.bytes body
      if short : payload.length < 2 ^ 63 then
        some (⟨128 ≤ first.toNat, ⟨first.toNat / 16 % 8, by omega⟩,
          ⟨first.toNat % 16, by omega⟩, key, payload, short⟩, rest)
      else none
  | _ => none

/-- The frames that `bytes` consists of. Every frame takes bytes, so their number is
fuel enough. -/
def decodeFrames (fuel : Nat) (bytes : Bytes) : Option (List Frame) :=
  match bytes, fuel with
  | [], _ => some []
  | _ :: _, 0 => none
  | byte :: bytes, fuel + 1 => do
      let (frame, rest) ← decode (byte :: bytes)
      let frames ← decodeFrames fuel rest
      some (frame :: frames)

def decodeAll (bytes : Bytes) : Option (List Frame) := decodeFrames bytes.length bytes

/-- A single-frame unmasked text message that contains "Hello". -/
example : (decodeAll ([0x81, 0x05] ++ ascii "Hello")).map (List.map Frame.payload) =
    some [ascii "Hello"] := by decide

/-! ## Decoding undoes encoding -/

theorem lengthCode_lt (length : Nat) : lengthCode length < 128 := by
  unfold lengthCode
  split
  · omega
  · split <;> omega

theorem decodeLength_extendedLength {length : Nat} (short : length < 2 ^ 63) (rest : Bytes) :
    decodeLength (lengthCode length) (extendedLength length ++ rest) = some (length, rest) := by
  by_cases small : length < 126
  · simp [decodeLength, lengthCode, extendedLength, small]
  · by_cases medium : length < 2 ^ 16
    · have value : BigEndian.decode (BigEndian.encode 2 length) = length :=
        BigEndian.decode_encode (by omega)
      have width : (BigEndian.encode 2 length).length = 2 := BigEndian.length_encode 2 length
      simp only [decodeLength, lengthCode, extendedLength, small, medium, if_false, if_true,
        split_append width, Option.bind_eq_bind, Option.bind_some, value]
      simp
    · have value : BigEndian.decode (BigEndian.encode 8 length) = length :=
        BigEndian.decode_encode (by omega)
      have width : (BigEndian.encode 8 length).length = 8 := BigEndian.length_encode 8 length
      simp only [decodeLength, lengthCode, extendedLength, small, medium, if_false,
        split_append width, Option.bind_eq_bind, Option.bind_some, value]
      simp

namespace Frame

variable (frame : Frame)

theorem length_body : frame.body.length = frame.payload.length := by
  unfold body
  split <;> simp

theorem length_keyBytes (masked : frame.maskingKey.isSome = true) :
    frame.keyBytes.length = 4 := by
  rcases Option.isSome_iff_exists.mp masked with ⟨key, equal⟩
  simp [keyBytes, equal, key.length]

theorem firstByte_toNat :
    frame.firstByte.toNat = 128 * frame.fin.toNat + 16 * frame.rsv + frame.opcode := by
  have flag : frame.fin.toNat ≤ 1 := Bool.toNat_le frame.fin
  have reserved := frame.rsv.isLt
  have code := frame.opcode.isLt
  simp only [firstByte, UInt8.toNat_ofNat']
  omega

theorem secondByte_toNat :
    frame.secondByte.toNat =
      128 * frame.maskingKey.isSome.toNat + lengthCode frame.payload.length := by
  have flag : frame.maskingKey.isSome.toNat ≤ 1 := Bool.toNat_le _
  have code := lengthCode_lt frame.payload.length
  simp only [secondByte, UInt8.toNat_ofNat']
  omega

theorem decodeKey_keyBytes (rest : Bytes) :
    decodeKey (128 ≤ frame.secondByte.toNat) (frame.keyBytes ++ rest) =
      some (frame.maskingKey, rest) := by
  have code := lengthCode_lt frame.payload.length
  rw [frame.secondByte_toNat]
  cases key : frame.maskingKey with
  | none =>
      have unmasked : ¬ 128 ≤ lengthCode frame.payload.length := by omega
      simp [decodeKey, keyBytes, key, unmasked]
  | some key' =>
      have front : (key'.bytes ++ rest).take 4 = key'.bytes := by
        rw [← key'.length, List.take_left]
      have back : (key'.bytes ++ rest).drop 4 = rest := by
        rw [← key'.length, List.drop_left]
      simp [decodeKey, keyBytes, key, front, back, key'.length]

/-- One frame in front of anything decodes to itself. -/
theorem decode_encode (rest : Bytes) : decode (frame.encode ++ rest) = some (frame, rest) := by
  have code := lengthCode_lt frame.payload.length
  have flag : frame.maskingKey.isSome.toNat ≤ 1 := Bool.toNat_le _
  have seven : frame.secondByte.toNat % 128 = lengthCode frame.payload.length := by
    rw [frame.secondByte_toNat]
    omega
  have fin : decide (128 ≤ frame.firstByte.toNat) = frame.fin := by
    have reserved := frame.rsv.isLt
    have opcode := frame.opcode.isLt
    rw [frame.firstByte_toNat]
    cases frame.fin <;> simp <;> omega
  have rsv : frame.firstByte.toNat / 16 % 8 = frame.rsv := by
    have reserved := frame.rsv.isLt
    have opcode := frame.opcode.isLt
    rw [frame.firstByte_toNat]
    omega
  have opcode : frame.firstByte.toNat % 16 = frame.opcode := by
    have opcode := frame.opcode.isLt
    rw [frame.firstByte_toNat]
    omega
  have payload : (match frame.maskingKey with
      | none => frame.body
      | some key => mask key.bytes frame.body) = frame.payload := by
    unfold body
    split
    · rfl
    · rw [mask_mask]
  simp only [encode, List.cons_append, decode, seven, List.append_assoc,
    decodeLength_extendedLength frame.short, Option.bind_eq_bind, Option.bind_some,
    frame.decodeKey_keyBytes, split_append frame.length_body, payload, frame.short, dif_pos, fin,
    rsv, opcode]

theorem length_encode :
    frame.encode.length = 2 + (extendedLength frame.payload.length).length +
      frame.keyBytes.length + frame.payload.length := by
  simp only [encode, List.length_cons, List.length_append, frame.length_body]
  omega

end Frame

theorem decodeFrames_encode (frames : List Frame) (fuel : Nat)
    (enough : frames.length ≤ fuel) :
    decodeFrames fuel (frames.flatMap Frame.encode) = some frames := by
  induction frames generalizing fuel with
  | nil => simp [decodeFrames]
  | cons frame frames induction =>
      rw [List.length_cons] at enough
      rcases fuel with _ | fuel
      · omega
      · have first : decode (frame.encode ++ frames.flatMap Frame.encode) =
            some (frame, frames.flatMap Frame.encode) := frame.decode_encode _
        have others := induction fuel (by omega)
        rw [List.flatMap_cons]
        simp only [Frame.encode, List.cons_append] at first ⊢
        rw [decodeFrames, first]
        simp [others]

/-- A sequence of encoded frames decodes to these frames, with nothing left over. -/
theorem decodeAll_encode (frames : List Frame) :
    decodeAll (frames.flatMap Frame.encode) = some frames := by
  apply decodeFrames_encode
  induction frames with
  | nil => simp
  | cons frame frames induction =>
      rw [List.flatMap_cons, List.length_append, frame.length_encode, List.length_cons]
      omega

end MyBookSources.Rfc6455
