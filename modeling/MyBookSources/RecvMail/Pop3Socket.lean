import MyBookSources.Foundation.Decimal
import MyBookSources.Foundation.LockStep
import MyBookSources.Foundation.Polling
import MyBookSources.RecvMail.HeaderTags

/-! # The POP3 client

`Pop3Socket` logs on to a server, asks for the list of its mails and for the header of each.
It polls its socket with `select` for a reply, a limited number of times without success, and
takes what `recv` gives until the end of the reply is found. Positions in a field of a header
are `long`s of 32 bits, and natural numbers here, which is the same below `2 ^ 31` bytes.
-/

namespace MyBookSources.RecvMail

open Polling (Poll)

/-! ## Numbers and times -/

/-- A number outside an `int` is read as the end of the range. -/
def atoi (text : Bytes) : Int :=
  let number := (cString text).dropWhile Decimal.isSpace
  let unsigned :=
    if number.head? = some 45 ∨ number.head? = some 43 then number.tail else number
  let spelled := Decimal.value (unsigned.takeWhile Decimal.isDigit)
  max (-2 ^ 31) (min (2 ^ 31 - 1) (if number.head? = some 45 then -(spelled : Int) else spelled))

example : atoi (ascii " -12 8284") = -12 := by decide

structure TimeItem where
  year : Int
  month : Int
  day : Int
  hour : Int
  minute : Int
  second : Int

def MONTHS : List Bytes :=
  [ascii "Jan", ascii "Feb", ascii "Mar", ascii "Apr", ascii "May", ascii "Jun", ascii "Jul",
    ascii "Aug", ascii "Sept", ascii "Oct", ascii "Nov", ascii "Dec"]

def parseTimeString (dateString : Bytes) (timeItem : TimeItem) : Option TimeItem :=
  match splitString dateString (ascii " ") with
  | [day, month, year, clock] =>
      match splitString clock (ascii ":") with
      | [hour, minute, second] =>
          some
            { day := atoi day
              year := atoi year
              month := match MONTHS.idxOf? month with
                | some index => index + 1
                | none => timeItem.month
              hour := atoi hour
              minute := atoi minute
              second := atoi second }
      | _ => none
  | _ => none

/-! ## The socket -/

structure MailItem where
  id : Int
  size : Int
  title : Wide
  subject : Wide
  date : Int
  time : Int
  sender : Bytes
  messageID : Bytes

/-- `MailItem item = { 0 };` with what `getList` sets. -/
def MailItem.listed (id size : Int) : MailItem := ⟨id, size, [], [], 0, 0, [], []⟩

abbrev Peer := LockStep.Peer (Poll Byte)

def INVALID_SOCKET : Int := -1

structure Pop3Socket where
  hSocket : Int
  bConnected : Bool
  strSend : Bytes
  strRecv : Bytes
  mailList : List MailItem
  /-- What has gone over the socket. -/
  trace : LockStep.Trace Bytes (Poll Byte)
  /-- Whether a command was longer than the buffer it was printed to. -/
  overrun : Bool
  /-- The positions of `_MailList` that `getHeader` and the getters have used. -/
  accesses : List Int

namespace Pop3Socket

/-- What a call returns, and the socket behind it. A call that still waits when its polls are
used up has no result. -/
abbrev Result := Option Bool × Pop3Socket

/-- `if (!call) return false;` -/
def andThen (call : Pop3Socket → Result) (pop3 : Pop3Socket) (rest : Pop3Socket → Result) :
    Result :=
  match call pop3 with
  | (some true, pop3) => rest pop3
  | (some false, pop3) => (some false, pop3)
  | (none, pop3) => (none, pop3)

def close (pop3 : Pop3Socket) : Pop3Socket :=
  { pop3 with hSocket := INVALID_SOCKET, bConnected := false }

/-! ### Replies -/

/-- The loop of `recvBody` and `recvData` over at most so many polls, with the tries it has
left. A poll is quiet where `select` reports nothing. -/
def recvLoop (peer : Peer) (marker : Bytes) : Nat → Nat → Pop3Socket → Result
  | 0, _, pop3 => (none, pop3)
  | polls + 1, tries, pop3 =>
      let poll := peer.replies pop3.trace.received.length
      let pop3 := { pop3 with trace := pop3.trace ++ [.received poll] }
      match poll with
      | .quiet =>
          if tries = 0 then (some (contains pop3.strRecv marker), pop3)
          else recvLoop peer marker polls (tries - 1) pop3
      | .error => (some false, pop3.close)
      | .data bytes =>
          let pop3 := { pop3 with strRecv := pop3.strRecv ++ bytes }
          if contains pop3.strRecv marker then (some true, pop3)
          else recvLoop peer marker polls tries pop3

/-- `recvBody` and `recvData`, which differ in the end of a reply and in how often they look. -/
def receive (peer : Peer) (marker : Bytes) (tries polls : Nat) (pop3 : Pop3Socket) : Result :=
  if pop3.hSocket = INVALID_SOCKET then (some false, pop3)
  else recvLoop peer marker polls tries { pop3 with strRecv := [] }

def recvBody (peer : Peer) (polls : Nat) (pop3 : Pop3Socket) : Result :=
  receive peer (ascii "\r\n.\r\n") 20 polls pop3

def recvData (peer : Peer) (polls : Nat) (pop3 : Pop3Socket) : Result :=
  receive peer (ascii "\r\n") 5 polls pop3

def verifyRecvData (strRecv : Bytes) : Bool :=
  if strRecv.isEmpty then false
  else
    let szHeader := stringToUpper ((cString strRecv).take 4)
    if (ascii "+OK").isPrefixOf szHeader then true
    else if (ascii "-ERR").isPrefixOf szHeader then false
    else true

def verified (pop3 : Pop3Socket) : Result := (some (verifyRecvData pop3.strRecv), pop3)

/-! ### Requests -/

/-- `request`: all of `m_strSend` is sent, and the reply to it received. -/
def request (peer : Peer) (polls : Nat) (toRecvBody : Bool) (pop3 : Pop3Socket) : Result :=
  if pop3.hSocket = INVALID_SOCKET then (some false, pop3)
  else if pop3.strSend = [] then (some true, pop3)
  else
    let pop3 := { pop3 with strRecv := [] }
    if peer.accepts pop3.trace.attempts then
      let pop3 := { pop3 with trace := pop3.trace ++ [.sent pop3.strSend] }
      match if toRecvBody then recvBody peer polls pop3 else recvData peer polls pop3 with
      | (some false, pop3) => (some false, pop3.close)
      | other => other
    else (some false, { pop3 with trace := pop3.trace ++ [.failed pop3.strSend] })

/-! ### What a request leaves alone -/

/-- The list, the record of its uses and that of the buffers are as before, and so is the
socket behind a call that succeeds. -/
structure Keeps (before : Pop3Socket) (result : Result) : Prop where
  mailList : result.2.mailList = before.mailList
  accesses : result.2.accesses = before.accesses
  overrun : result.2.overrun = before.overrun
  hSocket : result.1 = some true → result.2.hSocket = before.hSocket

theorem recvLoop_keeps (peer : Peer) (marker : Bytes) (polls tries : Nat) (pop3 : Pop3Socket) :
    Keeps pop3 (recvLoop peer marker polls tries pop3) := by
  fun_induction recvLoop peer marker polls tries pop3 with
  | case1 tries pop3 => exact ⟨rfl, rfl, rfl, nofun⟩
  | case2 => exact ⟨rfl, rfl, rfl, fun _ => rfl⟩
  | case3 polls tries pop3 poll next quiet left induction =>
      exact ⟨induction.mailList, induction.accesses, induction.overrun, induction.hSocket⟩
  | case4 => exact ⟨rfl, rfl, rfl, nofun⟩
  | case5 => exact ⟨rfl, rfl, rfl, fun _ => rfl⟩
  | case6 polls tries pop3 poll next bytes data received missing induction =>
      exact ⟨induction.mailList, induction.accesses, induction.overrun, induction.hSocket⟩

theorem receive_keeps (peer : Peer) (marker : Bytes) (tries polls : Nat) (pop3 : Pop3Socket) :
    Keeps pop3 (receive peer marker tries polls pop3) := by
  rw [receive]
  split
  · exact ⟨rfl, rfl, rfl, nofun⟩
  · have loop := recvLoop_keeps peer marker polls tries { pop3 with strRecv := [] }
    exact ⟨loop.mailList, loop.accesses, loop.overrun, loop.hSocket⟩

theorem reply_keeps (peer : Peer) (polls : Nat) (toRecvBody : Bool) (pop3 : Pop3Socket) :
    Keeps pop3 (if toRecvBody then recvBody peer polls pop3 else recvData peer polls pop3) := by
  cases toRecvBody with
  | true => exact receive_keeps peer _ 20 polls pop3
  | false => exact receive_keeps peer _ 5 polls pop3

theorem request_keeps (peer : Peer) (polls : Nat) (toRecvBody : Bool) (pop3 : Pop3Socket) :
    Keeps pop3 (request peer polls toRecvBody pop3) := by
  rw [request]
  split
  · exact ⟨rfl, rfl, rfl, nofun⟩
  · split
    · exact ⟨rfl, rfl, rfl, fun _ => rfl⟩
    · dsimp only
      split
      · have keeps := reply_keeps peer polls toRecvBody
          { pop3 with
            strRecv := []
            trace := pop3.trace ++ [.sent pop3.strSend] }
        split
        · next after failed =>
            rw [failed] at keeps
            exact ⟨keeps.mailList, keeps.accesses, keeps.overrun, nofun⟩
        · exact ⟨keeps.mailList, keeps.accesses, keeps.overrun, keeps.hSocket⟩
      · exact ⟨rfl, rfl, rfl, nofun⟩

/-! ### Commands -/

/-- `sprintf` to a local buffer that is cleared, and from there to `m_strSend`. -/
def print (size : Nat) (text : Bytes) (pop3 : Pop3Socket) : Pop3Socket :=
  { pop3 with strSend := text, overrun := pop3.overrun || decide (size ≤ text.length) }

def userCommand (pszUser : Bytes) : Bytes := ascii "USER " ++ cString pszUser ++ ascii "\r\n"

def passCommand (pszPassword : Bytes) : Bytes :=
  ascii "PASS " ++ cString pszPassword ++ ascii "\r\n"

def logon (peer : Peer) (polls : Nat) (pszUser pszPassword : Bytes) (pop3 : Pop3Socket) :
    Result :=
  if pop3.hSocket = INVALID_SOCKET then (some false, pop3)
  else
    andThen (request peer polls false) (pop3.print 32 (userCommand pszUser)) fun pop3 =>
    andThen verified pop3 fun pop3 =>
    andThen (request peer polls false) (pop3.print 32 (passCommand pszPassword)) fun pop3 =>
    andThen verified pop3 fun pop3 =>
    (some true, { pop3 with bConnected := true })

/-! ### The list of mails -/

/-- The loop of `getList` over the lines of the reply. -/
def listLoop : List Bytes → List MailItem → List MailItem
  | [], mailList => mailList
  | strItem :: rest, mailList =>
      if strItem.headD 0 = 43 then listLoop rest mailList
      else
        match splitString strItem (ascii " ") with
        | [id, size] => listLoop rest (mailList ++ [.listed (atoi id) (atoi size)])
        | _ => listLoop rest mailList

def getList (peer : Peer) (polls : Nat) (pop3 : Pop3Socket) : Result :=
  if pop3.hSocket = INVALID_SOCKET then (some false, pop3)
  else
    andThen (request peer polls true) { pop3 with strSend := ascii "LIST\r\n" } fun pop3 =>
    andThen verified pop3 fun pop3 =>
    (some true,
      { pop3 with mailList := listLoop (splitString pop3.strRecv (ascii "\r\n")) [] })

def getMailCount (pop3 : Pop3Socket) : Int := int32 pop3.mailList.length

def getMailID (index : Int) (pop3 : Pop3Socket) : Int :=
  if index < 0 ∨ int32 pop3.mailList.length ≤ index then -1
  else ((pop3.mailList[index.toNat]?).map MailItem.id).getD (-1)

/-! ### The header of a mail -/

/-- An assignment to a field of `_MailList[index - 1]`. -/
def assign (index : Int) (set : MailItem → MailItem) (pop3 : Pop3Socket) : Pop3Socket :=
  { pop3 with
    mailList :=
      if 0 ≤ index - 1 then pop3.mailList.modify (index - 1).toNat set else pop3.mailList
    accesses := pop3.accesses ++ [index - 1] }

/-- What stands between the first comma and the plus sign of the time zone. -/
def dateText (value : Bytes) : Bytes :=
  let strTemp := match value.idxOf? 44 with
    | some lStart => value.drop (lStart + 1)
    | none => value
  match strTemp.idxOf? 43 with
  | some lStart => strTemp.take lStart
  | none => strTemp

def bracketed (value : Bytes) : Option Bytes :=
  match value.idxOf? 60 with
  | some lStart =>
      let behind := value.drop (lStart + 1)
      (behind.idxOf? 62).map fun lEnd => behind.take lEnd
  | none => none

def setDate (timeItem : TimeItem) (index : Int) (value : Bytes) (pop3 : Pop3Socket) :
    Pop3Socket :=
  match parseTimeString (dateText value) timeItem with
  | some timeItem =>
      let pop3 := pop3.assign index fun item =>
        { item with
          date := signed 32 (timeItem.year * 10000 + timeItem.month * 100 + timeItem.day) }
      pop3.assign index fun item =>
        { item with
          time := signed 32 (timeItem.hour * 10000 + timeItem.minute * 100 + timeItem.second) }
  | none => pop3

/-- Where `analyzeString` does not return, no title is set. -/
def setSubject (platform : Platform) (index : Int) (value : Bytes) (pop3 : Pop3Socket) :
    Pop3Socket :=
  let pop3 := pop3.assign index fun item =>
    { item with subject := EncodeUtil.s2ws platform (ascii "SUBJECT:" ++ value) }
  pop3.assign index fun item =>
    { item with title := (analyzeString platform value).getD item.title }

def setSender (index : Int) (value : Bytes) (pop3 : Pop3Socket) : Pop3Socket :=
  match bracketed value with
  | some strTemp => pop3.assign index fun item => { item with sender := strTemp }
  | none => pop3

def setMessageID (index : Int) (value : Bytes) (pop3 : Pop3Socket) : Pop3Socket :=
  pop3.assign index fun item => { item with messageID := (bracketed value).getD value }

/-- `if (iter != mapString.end())` -/
def setTag (mapString : List (Bytes × Bytes)) (tag : Bytes)
    (set : Bytes → Pop3Socket → Pop3Socket) (pop3 : Pop3Socket) : Pop3Socket :=
  match mapString.lookup tag with
  | some value => set value pop3
  | none => pop3

/-- `getHeader` behind its request. `timeItem` is what its memory held before. -/
def readHeader (platform : Platform) (timeItem : TimeItem) (index : Int) (pop3 : Pop3Socket) :
    Pop3Socket :=
  let mapString := analyzeTags (splitString pop3.strRecv (ascii "\r\n"))
  let pop3 := setTag mapString (ascii "DATE:") (setDate timeItem index) pop3
  let pop3 := setTag mapString (ascii "SUBJECT:") (setSubject platform index) pop3
  let pop3 := setTag mapString (ascii "FROM:") (setSender index) pop3
  setTag mapString (ascii "MESSAGE-ID:") (setMessageID index) pop3

/-- `% d` puts a blank in front of a number without a sign. -/
def topCommand (index : Int) : Bytes :=
  ascii "TOP " ++ (if 0 ≤ index then [32] else []) ++ Decimal.text index ++ ascii " 1\r\n"

def getHeader (platform : Platform) (timeItem : TimeItem) (peer : Peer) (polls : Nat)
    (index : Int) (pop3 : Pop3Socket) : Result :=
  if pop3.hSocket = INVALID_SOCKET then (some false, pop3)
  else
    andThen (request peer polls true) (pop3.print 16 (topCommand index)) fun pop3 =>
    (some true, pop3.readHeader platform timeItem index)

/-- A field of `_MailList[index - 1]`, if there is such an entry. -/
def getField {α : Type} (field : MailItem → α) (index : Int) (pop3 : Pop3Socket) :
    Option α × Pop3Socket :=
  (if 0 ≤ index - 1 then (pop3.mailList[(index - 1).toNat]?).map field else none,
    { pop3 with accesses := pop3.accesses ++ [index - 1] })

def getTitle (index : Int) (pop3 : Pop3Socket) : Option Wide × Pop3Socket :=
  getField MailItem.title index pop3

def getFrom (index : Int) (pop3 : Pop3Socket) : Option Bytes × Pop3Socket :=
  getField MailItem.sender index pop3

def getDate (index : Int) (pop3 : Pop3Socket) : Option Int × Pop3Socket :=
  getField MailItem.date index pop3

def getTime (index : Int) (pop3 : Pop3Socket) : Option Int × Pop3Socket :=
  getField MailItem.time index pop3

def getMessageID (index : Int) (pop3 : Pop3Socket) : Option Bytes × Pop3Socket :=
  getField MailItem.messageID index pop3

end Pop3Socket

end MyBookSources.RecvMail
