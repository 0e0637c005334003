import MyBookSources.Foundation.Bytes
import MyBookSources.Foundation.LockStep

/-! # The SMTP client

`SmtpSocket` sends one mail: a connection, a logon, the envelope and the message, each as
commands to whose replies it listens. The socket blocks, so that a `send` takes all it is
given or fails.
-/

namespace MyBookSources.SendMail

/-! ## Base64 -/

namespace Base64Util

def EnBase64Tab : Bytes :=
  ascii "ABCDEFGHIJKLMNOPQRSTUVWXYZabcdefghijklmnopqrstuvwxyz0123456789+/"

/-- A `char`, which is signed, as the `int` that it is promoted to. -/
def promoted (char : Byte) : BitVec 32 := char.toBitVec.signExtend 32

/-- The table at an index. `outside` is what memory holds around the table, which a byte of
`0x80` or more reads. -/
def tableAt (outside : Int → Byte) (index : BitVec 32) : Byte :=
  if 0 ≤ index.toInt ∧ index.toInt < 64 then EnBase64Tab.getD index.toNat 0
  else outside index.toInt

/-- What `encode` writes to the buffer; `lenDest` bytes are there already. -/
def encode (outside : Int → Byte) (maxDest : Nat) : Nat → Bytes → Bytes
  | lenDest, c1 :: c2 :: c3 :: rest =>
      if maxDest ≤ lenDest + 4 then []
      else
        [tableAt outside ((promoted c1).sshiftRight 2),
          tableAt outside (((promoted c1 <<< 4) ||| (promoted c2).sshiftRight 4) &&& 0x3F),
          tableAt outside (((promoted c2 <<< 2) ||| (promoted c3).sshiftRight 6) &&& 0x3F),
          tableAt outside (promoted c3 &&& 0x3F)] ++ encode outside maxDest (lenDest + 4) rest
  | lenDest, [c1, c2] =>
      if maxDest ≤ lenDest + 4 then []
      else
        [tableAt outside ((promoted c1 &&& 0xFC).sshiftRight 2),
          tableAt outside (((promoted c1 &&& 0x03) <<< 4) |||
            (promoted c2 &&& 0xF0).sshiftRight 4),
          tableAt outside ((promoted c2 &&& 0x0F) <<< 2),
          61]
  | lenDest, [c1] =>
      if maxDest ≤ lenDest + 4 then []
      else
        [tableAt outside ((promoted c1 &&& 0xFC).sshiftRight 2),
          tableAt outside ((promoted c1 &&& 0x03) <<< 4),
          61, 61]
  | _, [] => []

example : encode (fun _ => 0) 64 0 (ascii "hi") = ascii "aGk=" := by decide

end Base64Util

/-! ## The socket -/

/-- What a `recv` into the buffer of 1024 bytes gives. -/
inductive Received
  | error
  | data (bytes : Bytes) (fits : bytes.length ≤ 1024)
  deriving DecidableEq

abbrev Peer := LockStep.Peer Received

/-- How far a connection gets: the number of the socket, negative if there is none, whether
the host is found, and whether it answers. -/
structure Host where
  socket : Int
  found : Bool
  answers : Bool

structure SmtpSocket where
  bConnected : Bool
  hSocket : Int
  strUser : Bytes
  strPassword : Bytes
  strFrom : Bytes
  strTo : List Bytes
  /-- What has gone over the socket. -/
  trace : LockStep.Trace Bytes Received

namespace SmtpSocket

def create : SmtpSocket := ⟨false, -1, [], [], [], [], []⟩

/-- Whether a reply begins with the three digits of the code. -/
def beginsWith (recvCode : Bytes) : Received → Bool
  | .error => false
  | .data bytes _ => 3 ≤ bytes.length && bytes.take 3 == recvCode

/-- `if (!call) return false;` -/
def andThen (call : SmtpSocket → Bool × SmtpSocket) (smtp : SmtpSocket)
    (rest : SmtpSocket → Bool × SmtpSocket) : Bool × SmtpSocket :=
  let (result, smtp) := call smtp
  if result then rest smtp else (false, smtp)

/-- One `send` on the socket; the result is false for `SOCKET_ERROR`. -/
def transmit (peer : Peer) (data : Bytes) (smtp : SmtpSocket) : Bool × SmtpSocket :=
  if peer.accepts smtp.trace.attempts then
    (true, { smtp with trace := smtp.trace ++ [.sent data] })
  else (false, { smtp with trace := smtp.trace ++ [.failed data] })

def checkResponse (peer : Peer) (recvCode : Bytes) (smtp : SmtpSocket) : Bool × SmtpSocket :=
  let received := peer.replies smtp.trace.received.length
  (beginsWith recvCode received, { smtp with trace := smtp.trace ++ [.received received] })

def closeConnection (smtp : SmtpSocket) : SmtpSocket :=
  if 0 ≤ smtp.hSocket then { smtp with hSocket := -1, bConnected := false } else smtp

/-! ### Commands -/

/-- `snprintf` into a buffer of 256 bytes. -/
def printed (text : Bytes) : Bytes := text.take 255

def heloCommand (url : Bytes) : Bytes := printed (ascii "HELO " ++ cString url ++ ascii "\r\n")

/-- The encoded text in a buffer of 64 bytes, with a line end behind its last byte. -/
def encodedLine (outside : Int → Byte) (text : Bytes) : Bytes :=
  cString (Base64Util.encode outside 64 0 (cString text)) ++ ascii "\r\n"

def mailFromCommand (strFrom : Bytes) : Bytes :=
  printed (ascii "MAIL FROM:<" ++ cString strFrom ++ ascii ">\r\n")

def rcptToCommand (recipient : Bytes) : Bytes :=
  printed (ascii "rcpt to:  <" ++ cString recipient ++ ascii ">\r\n")

/-- The headers without the line end of the last one. `now` is what `time` returns. -/
def headerText (now : Int) (strFrom : Bytes) (strTo : List Bytes) (subject : Bytes) : Bytes :=
  ascii "Date: " ++ ascii (toString now) ++ ascii "\r\n" ++
    ascii "from: " ++ strFrom ++ ascii "\r\n" ++
    ascii "to: " ++ strTo.flatMap (· ++ ascii ";") ++ ascii "\r\n" ++
    ascii "subject: " ++ subject ++ ascii "\r\n" ++
    ascii "Content-Type: text/plain; charset=UTF-8\r\n" ++
    ascii "Content-Transfer-Encoding: quoted-printable"

/-- What `send` transmits after the reply to `DATA`. -/
def messageText (now : Int) (strFrom : Bytes) (strTo : List Bytes) (subject mailData : Bytes) :
    Bytes :=
  headerText now strFrom strTo subject ++ ascii "\r\n\r\n" ++ mailData ++ ascii "\r\n.\r\n"

def SEND_MAX_SIZE : Nat := 1024 * 100000

/-! ### The methods -/

def quit (peer : Peer) (smtp : SmtpSocket) : SmtpSocket :=
  if smtp.hSocket < 0 then smtp
  else
    let (sent, smtp) := transmit peer (ascii "QUIT\r\n") smtp
    if sent then (checkResponse peer (ascii "221") smtp).2 else closeConnection smtp

def connect (host : Host) (peer : Peer) (url : Bytes) (smtp : SmtpSocket) : Bool × SmtpSocket :=
  let smtp := closeConnection smtp
  let smtp := { smtp with hSocket := host.socket }
  if smtp.hSocket < 0 then (false, smtp)
  else if !host.found then (false, smtp)
  else if !host.answers then (false, smtp)
  else
    andThen (checkResponse peer (ascii "220")) smtp fun smtp =>
    andThen (transmit peer (heloCommand url)) smtp fun smtp =>
    andThen (checkResponse peer (ascii "250")) smtp fun smtp =>
    (true, { smtp with bConnected := true })

def logon (outside : Int → Byte) (peer : Peer) (user password : Bytes) (smtp : SmtpSocket) :
    Bool × SmtpSocket :=
  if smtp.hSocket < 0 then (false, smtp)
  else
    andThen (transmit peer (ascii "AUTH LOGIN\r\n")) smtp fun smtp =>
    andThen (checkResponse peer (ascii "334")) smtp fun smtp =>
    andThen (transmit peer (encodedLine outside user)) smtp fun smtp =>
    andThen (checkResponse peer (ascii "334")) smtp fun smtp =>
    andThen (transmit peer (encodedLine outside password)) smtp fun smtp =>
    andThen (checkResponse peer (ascii "235")) smtp fun smtp =>
    (true, { smtp with strUser := cString user, strPassword := cString password })

def setMailFrom (peer : Peer) (strFrom : Bytes) (smtp : SmtpSocket) : Bool × SmtpSocket :=
  if smtp.hSocket < 0 then (false, smtp)
  else
    andThen (transmit peer (mailFromCommand strFrom)) smtp fun smtp =>
    andThen (checkResponse peer (ascii "250")) smtp fun smtp =>
    (true, { smtp with strFrom := cString strFrom })

def rcptTo (peer : Peer) : List Bytes → SmtpSocket → Bool × SmtpSocket
  | [], smtp => (true, smtp)
  | recipient :: rest, smtp =>
      andThen (transmit peer (rcptToCommand recipient)) smtp fun smtp =>
      andThen (checkResponse peer (ascii "250")) smtp fun smtp =>
      rcptTo peer rest smtp

def setMailTo (peer : Peer) (sendTo : List Bytes) (smtp : SmtpSocket) : Bool × SmtpSocket :=
  if smtp.hSocket < 0 then (false, smtp)
  else
    andThen (rcptTo peer sendTo) smtp fun smtp =>
    (true, { smtp with strTo := sendTo })

def transmitPieces (peer : Peer) (data : Bytes) (smtp : SmtpSocket) : Bool × SmtpSocket :=
  if data = [] then (true, smtp)
  else
    andThen (transmit peer (data.take SEND_MAX_SIZE)) smtp fun smtp =>
    transmitPieces peer (data.drop SEND_MAX_SIZE) smtp
  termination_by data.length
  decreasing_by
    have positive : 0 < data.length := List.length_pos_iff.mpr (by assumption)
    simp only [List.length_drop, SEND_MAX_SIZE]
    omega

def send (peer : Peer) (now : Int) (subject mailData : Bytes) (smtp : SmtpSocket) :
    Bool × SmtpSocket :=
  if smtp.hSocket < 0 then (false, smtp)
  else
    let data := messageText now smtp.strFrom smtp.strTo subject mailData
    andThen (transmit peer (ascii "DATA\r\n")) smtp fun smtp =>
    andThen (checkResponse peer (ascii "354")) smtp fun smtp =>
    andThen (transmitPieces peer data) smtp fun smtp =>
    andThen (checkResponse peer (ascii "250")) smtp fun smtp =>
    (true, smtp)

/-- The arguments of `sendMail`, except for the port. -/
structure Mail where
  server : Bytes
  strFrom : Bytes
  fromPassword : Bytes
  recipients : List Bytes
  subject : Bytes
  mailData : Bytes

/-- What a call of `sendMail` finds: the host, the clock, and the memory around the table of
`encode`. -/
structure Surroundings where
  host : Host
  now : Int
  outside : Int → Byte

/-- The calls of `sendMail` in front of the destructor. -/
def converseMail (around : Surroundings) (peer : Peer) (mail : Mail) (atSymbolPos : Nat) :
    Bool × SmtpSocket :=
  andThen (connect around.host peer mail.server) create fun smtp =>
  andThen (logon around.outside peer (mail.strFrom.take atSymbolPos) mail.fromPassword) smtp
    fun smtp =>
  andThen (setMailFrom peer mail.strFrom) smtp fun smtp =>
  andThen (setMailTo peer mail.recipients) smtp fun smtp =>
  andThen (send peer around.now mail.subject mail.mailData) smtp fun smtp =>
  (true, smtp)

/-- The result of `sendMail` and all that has gone over the socket. -/
def sendMail (around : Surroundings) (peer : Peer) (mail : Mail) :
    Bool × LockStep.Trace Bytes Received :=
  match mail.strFrom.idxOf? 64 with
  | none => (false, [])
  | some atSymbolPos =>
      let (result, smtp) := converseMail around peer mail atSymbolPos
      (result, (quit peer smtp).trace)

end SmtpSocket

end MyBookSources.SendMail
