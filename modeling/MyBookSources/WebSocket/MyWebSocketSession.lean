import MyBookSources.Utils.StringUtil
import MyBookSources.WebSocket.WebSocketHandshake

/-! # MyWebSocketSession

The session of one WebSocket client: the handshake, the packages it decodes and the
packages it sends. The session looks at its input buffer through `peek` and
`readableBytes` and takes bytes from the front with `retrieve`, so the buffer is
represented by its unread bytes. A result is `none` where the source overflows a signed
sum, reads outside a string or does not end.
-/

namespace MyBookSources.WebSocket

inductive MyOpCode
  | continuationFrame | textFrame | binaryFrame
  | reserved1 | reserved2 | reserved3 | reserved4 | reserved5
  | close | ping | pong
  | reserved6 | reserved7 | reserved8 | reserved9 | reserved10
  deriving DecidableEq

namespace MyOpCode

def value : MyOpCode → Fin 16
  | continuationFrame => 0
  | textFrame => 1
  | binaryFrame => 2
  | reserved1 => 3
  | reserved2 => 4
  | reserved3 => 5
  | reserved4 => 6
  | reserved5 => 7
  | close => 8
  | ping => 9
  | pong => 10
  | reserved6 => 11
  | reserved7 => 12
  | reserved8 => 13
  | reserved9 => 14
  | reserved10 => 15

/-- The conversion `(MyOpCode)opcode`. -/
def ofValue (value : Fin 16) : MyOpCode :=
  match value.val with
  | 0 => continuationFrame
  | 1 => textFrame
  | 2 => binaryFrame
  | 3 => reserved1
  | 4 => reserved2
  | 5 => reserved3
  | 6 => reserved4
  | 7 => reserved5
  | 8 => close
  | 9 => ping
  | 10 => pong
  | 11 => reserved6
  | 12 => reserved7
  | 13 => reserved8
  | 14 => reserved9
  | _ => reserved10

@[simp] theorem ofValue_value (opcode : MyOpCode) : ofValue opcode.value = opcode := by
  cases opcode <;> rfl

end MyOpCode

def MAX_WEBSOCKET_CLIENT_PACKAGE_LENGTH : Nat := 50 * 1024 * 1024

def MIN_WEBSOCKET_PACKAGE_HEADER_LENGTH : Nat := 6

def MAX_HEADER_LENGTH : Nat := 14

/-- What the session has the connection do, and the callbacks it makes. -/
inductive SessionEvent
  | sent (data : Bytes)
  | onConnect
  | onMessage (clientMsg : Bytes)
  | onPing
  | onPong
  | forceClose
  deriving DecidableEq

/-- What a session uses of `ZlibUtil` (into an empty string) and of the clock. -/
structure Platform where
  deflate : Bytes → Option Bytes
  inflate : Bytes → Option Bytes
  now : Bytes

/-- Compression that does nothing and a clock that shows nothing. -/
def Platform.still : Platform where
  deflate := some
  inflate := some
  now := []

structure MyWebSocketSession where
  updateToWebSocket : Bool
  httpHeaders : Bytes → Option Bytes
  url : Bytes
  params : Bytes
  userAgent : Bytes
  parsedData : Bytes
  clientCompressed : Bool

namespace MyWebSocketSession

def create : MyWebSocketSession where
  updateToWebSocket := false
  httpHeaders _ := none
  url := []
  params := []
  userAgent := []
  parsedData := []
  clientCompressed := false

/-! ## Handshake -/

def parseHttpPath (session : MyWebSocketSession) (str : Bytes) :
    Option (Bool × MyWebSocketSession) := do
  let vecTags ← StringUtil.Split str (ascii " ")
  match vecTags with
  | [method, target, version] =>
      if method ≠ ascii "GET" then some (false, session)
      else do
        let vecPathAndParams ← StringUtil.Split target (ascii "?")
        match vecPathAndParams with
        | [] => some (false, session)
        | path :: others =>
            some (version = ascii "HTTP/1.1",
              { session with url := path, params := others.headD session.params })
  | _ => some (false, session)

/-- The header lines of the loop in `handleHandshake`. -/
def parseHttpHeaders (session : MyWebSocketSession) :
    List Bytes → Option (Bool × MyWebSocketSession)
  | [] => some (true, session)
  | line :: lines =>
      match StringUtil.Cut line (ascii ":") with
      | name :: value :: _ => do
          let trimmed ← StringUtil.trim value 32
          parseHttpHeaders
            { session with httpHeaders := Function.update session.httpHeaders name trimmed } lines
      | _ => some (false, session)

def makeUpgradeResponse (platform : Platform) (session : MyWebSocketSession)
    (secWebSocketAccept : Bytes) : Bytes :=
  ascii "HTTP/1.1 101 Switching Protocols\r\nUpgrade: websocket\r\nSec-Websocket-Accept: " ++
    secWebSocketAccept ++
    ascii "\r\nServer: BTCMEXWebsocketServer 1.0.0\r\n" ++
    ascii "Connection: Upgrade\r\nSec-WebSocket-Version: 13\r\n" ++
    (if session.clientCompressed then
      ascii "Sec-WebSocket-Extensions: permessage-deflate; client_no_context_takeover\r\n"
    else []) ++
    ascii "Date: " ++ platform.now ++ ascii "\r\n\r\n"

def readUserAgent (session : MyWebSocketSession) : MyWebSocketSession :=
  match session.httpHeaders (ascii "User-Agent") with
  | some value => { session with userAgent := value }
  | none => session

def readExtensions (session : MyWebSocketSession) : Option MyWebSocketSession :=
  match session.httpHeaders (ascii "Sec-WebSocket-Extensions") with
  | some value => do
      let vecExtensions ← StringUtil.Split value (ascii ";")
      some (if ascii "permessage-deflate" ∈ vecExtensions then
        { session with clientCompressed := true } else session)
  | none => some session

/-- `generate` reads the 24 bytes of the key from a string that a zero ends. -/
def answerKey (platform : Platform) (session : MyWebSocketSession) :
    Option (Bool × MyWebSocketSession × List SessionEvent) :=
  match session.httpHeaders (ascii "Sec-WebSocket-Key") with
  | none => some (false, session, [])
  | some key =>
      if key.isEmpty then some (false, session, [])
      else if key.length < 23 then none
      else
        let accept := WebSocketHandshake.generate ((key ++ [0]).take 24)
        some (true, { session with updateToWebSocket := true },
          [.sent (session.makeUpgradeResponse platform accept), .onConnect])

/-- The tests in `handleHandshake` after its loop. -/
def checkHttpHeaders (platform : Platform) (session : MyWebSocketSession) :
    Option (Bool × MyWebSocketSession × List SessionEvent) :=
  if session.httpHeaders (ascii "Connection") ≠ some (ascii "Upgrade") then
    some (false, session, [])
  else if session.httpHeaders (ascii "Upgrade") ≠ some (ascii "websocket") then
    some (false, session, [])
  else if (session.httpHeaders (ascii "Host")).getD [] = [] then some (false, session, [])
  else if (session.httpHeaders (ascii "Origin")).getD [] = [] then some (false, session, [])
  else do
    let session ← session.readUserAgent.readExtensions
    session.answerKey platform

def handleHandshake (platform : Platform) (session : MyWebSocketSession) (data : Bytes) :
    Option (Bool × MyWebSocketSession × List SessionEvent) := do
  let vecHttpHeaders ← StringUtil.Split data (ascii "\r\n")
  match vecHttpHeaders with
  | [] => some (false, session, [])
  | requestLine :: headerLines =>
      if headerLines.length < 2 then some (false, session, [])
      else do
        let (pathParsed, session) ← session.parseHttpPath requestLine
        if !pathParsed then some (false, session, [])
        else do
          let (headersParsed, session) ← session.parseHttpHeaders headerLines
          if !headersParsed then some (false, session, []) else session.checkHttpHeaders platform

/-! ## Packages from the client -/

def unmaskData (src maskingKey : Bytes) : Bytes :=
  src.mapIdx fun n byte => byte ^^^ maskingKey.getD (n % 4) 0

def processPackage (platform : Platform) (session : MyWebSocketSession) (data : Bytes) :
    MyOpCode → Bool × List SessionEvent
  | .close => (false, [])
  | .ping => (true, [.onPing])
  | .pong => (true, [.onPong])
  | .textFrame | .binaryFrame =>
      if session.clientCompressed then
        match platform.inflate data with
        | none => (false, [])
        | some out => (true, [.onMessage out])
      else (true, [.onMessage data])
  | _ => (true, [])

/-- The zeroed array that the front of the buffer is copied to. -/
def pBytes (unread : Bytes) : Bytes :=
  (unread ++ List.replicate MAX_HEADER_LENGTH 0).take MAX_HEADER_LENGTH

def flagsByte (unread : Bytes) : Byte := (pBytes unread).getD 0 0

def lengthByte (unread : Bytes) : Byte := (pBytes unread).getD 1 0

def FIN (unread : Bytes) : Bool := flagsByte unread &&& 0x80 ≠ 0

def opcode (unread : Bytes) : MyOpCode :=
  .ofValue ⟨(flagsByte unread).toNat % 16, Nat.mod_lt _ (by omega)⟩

def mask (unread : Bytes) : Bool := lengthByte unread &&& 0x80 ≠ 0

def payloadLength (unread : Bytes) : Nat := (lengthByte unread).toNat % 128

/-- How the branches on `payloadLength` end. -/
inductive PackageLength
  | incomplete
  | illegal
  | known (headerSize bodyLength : Nat)
  deriving DecidableEq

/-- The branches on `payloadLength` in `decodePackage`. A length of zero adds nothing to
`headerSize`, not even the two flag bytes. -/
def packageLength (unread : Bytes) : PackageLength :=
  let readableBytesCount := int32 unread.length
  let keySize := if mask unread then 4 else 0
  if 0 < payloadLength unread ∧ payloadLength unread ≤ 125 then
    .known (keySize + 2) (payloadLength unread)
  else if payloadLength unread = 126 then
    if readableBytesCount < keySize + 4 then .incomplete
    else
      let bodyLength := BigEndian.decode ((pBytes unread).slice 2 4)
      if bodyLength < 126 ∨ 65535 < bodyLength then .illegal else .known (keySize + 4) bodyLength
  else if payloadLength unread = 127 then
    if readableBytesCount < keySize + 10 then .incomplete
    else
      let bodyLength := int64 (BigEndian.decode ((pBytes unread).slice 2 10))
      if bodyLength ≤ 65535 then .illegal else .known (keySize + 10) bodyLength.toNat
  else .known keySize 0

def payloadData (unread : Bytes) (headerSize bodyLength : Nat) : Bytes :=
  let body := unread.slice headerSize (headerSize + bodyLength)
  if mask unread then unmaskData body ((pBytes unread).slice (headerSize - 4) headerSize)
  else body

/-- The end of `decodePackage`, once the package is taken from the buffer. -/
def mergePackage (platform : Platform) (session : MyWebSocketSession) (fin : Bool)
    (opcode : MyOpCode) (data : Bytes) : Bool × MyWebSocketSession × List SessionEvent :=
  let merged := { session with parsedData := session.parsedData ++ data }
  if fin then
    match merged.processPackage platform merged.parsedData opcode with
    | (false, events) => (false, merged, events)
    | (true, events) => (true, { merged with parsedData := [] }, events)
  else (true, merged, [])

structure Progress where
  session : MyWebSocketSession
  unread : Bytes
  events : List SessionEvent

/-- The sum `headerSize + bodyLength` is a signed 64-bit one. -/
def decodePackage (platform : Platform) (session : MyWebSocketSession) (unread : Bytes) :
    Option (Bool × Progress) :=
  match packageLength unread with
  | .incomplete => some (true, ⟨session, unread, []⟩)
  | .illegal => some (false, ⟨session, unread, []⟩)
  | .known headerSize bodyLength =>
      if 2 ^ 63 ≤ headerSize + bodyLength then none
      else if int32 unread.length < headerSize + bodyLength then
        some (true, ⟨session, unread, []⟩)
      else
        let (decoded, session, events) := session.mergePackage platform (FIN unread)
          (opcode unread) (payloadData unread headerSize bodyLength)
        some (decoded, ⟨session, unread.drop (headerSize + bodyLength), events⟩)

/-! ## Reads -/

/-- The loop of `onRead`. -/
def onReadLoop (platform : Platform) (session : MyWebSocketSession) (unread : Bytes) :
    Nat → Option Progress
  | 0 => none
  | fuel + 1 =>
      if MAX_WEBSOCKET_CLIENT_PACKAGE_LENGTH ≤ unread.length then
        some ⟨session, unread, [.forceClose]⟩
      else if session.updateToWebSocket = false then
        match StringUtil.find (ascii "\r\n\r\n") unread with
        | none =>
            if unread.length < MAX_WEBSOCKET_CLIENT_PACKAGE_LENGTH then
              some ⟨session, unread, []⟩
            else some ⟨session, unread, [.forceClose]⟩
        | some pos =>
            match session.handleHandshake platform (unread.take (pos + 4)) with
            | none => none
            | some (false, session, events) =>
                some ⟨session, unread.drop (pos + 4), events ++ [.forceClose]⟩
            | some (true, session, events) =>
                (onReadLoop platform session (unread.drop (pos + 4)) fuel).map fun later =>
                  { later with events := events ++ later.events }
      else if unread.length < MIN_WEBSOCKET_PACKAGE_HEADER_LENGTH then
        some ⟨session, unread, []⟩
      else
        -- Whatever `decodePackage` returns, the loop ends.
        match session.decodePackage platform unread with
        | none => none
        | some (true, progress) => some progress
        | some (false, progress) =>
            some { progress with events := progress.events ++ [.forceClose] }

/-- An accepted handshake switches the session, so the loop has no third round. -/
def onRead (platform : Platform) (session : MyWebSocketSession) (unread : Bytes) :
    Option Progress :=
  session.onReadLoop platform unread 2

/-- Each read is appended to the input buffer and followed by one call of `onRead`. -/
def readAll (platform : Platform) (progress : Progress) : List Bytes → Option Progress
  | [] => some progress
  | read :: reads => do
      let next ← progress.session.onRead platform (progress.unread ++ read)
      readAll platform { next with events := progress.events ++ next.events } reads

/-! ## Packages to the client -/

/-- The package in front of `destbuf`. -/
def packageHeader (clientCompressed : Bool) (opcode : UInt8) (dataLength : Nat) : Bytes :=
  let flags := 0x80 ||| opcode ||| (if clientCompressed then 0x40 else 0)
  if dataLength < 126 then [flags, UInt8.ofNat dataLength]
  else if dataLength ≤ 65535 then [flags, 126] ++ BigEndian.encode 2 dataLength
  else [flags, 127] ++ BigEndian.encode 8 dataLength

/-- The bytes that `send` passes to `sendPackage`, if it gets there. -/
def send (platform : Platform) (session : MyWebSocketSession) (data : Bytes) (opcode : UInt8) :
    Option Bytes := do
  let destbuf ←
    if session.clientCompressed ∧ 0 < data.length then platform.deflate data else some data
  some (packageHeader session.clientCompressed opcode destbuf.length ++ destbuf)

end MyWebSocketSession

end MyBookSources.WebSocket
