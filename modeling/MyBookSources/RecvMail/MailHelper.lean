import MyBookSources.Utils.StringUtil
import MyBookSources.RecvMail.EncodeUtil

/-! # The parser of received mails

`MailHelper` keeps what it finds in static members. A result is `none` where the source does
not return: it loops for ever, throws or writes behind a buffer.

Positions are `long`s of 32 bits. The two loops that go through a whole text keep them so. Where
one line or one part is cut, they are natural numbers here, which is the same for texts below
`2 ^ 31` bytes.
-/

namespace MyBookSources.RecvMail

open StringUtil (find)

/-! ## Strings -/

/-- `std::string::find` from a position on. -/
def findFrom (pattern text : Bytes) (start : Nat) : Option Nat :=
  if text.length < start then none else (find pattern (text.drop start)).map (· + start)

theorem findFrom_le {pattern text : Bytes} {start pos : Nat}
    (found : findFrom pattern text start = some pos) :
    start ≤ pos ∧ pos + pattern.length ≤ text.length := by
  unfold findFrom at found
  split at found
  · cases found
  · rcases Option.map_eq_some_iff.mp found with ⟨back, foundRest, rfl⟩
    have within := StringUtil.find_le foundRest
    rw [List.length_drop] at within
    omega

/-- A position as a `long`; `npos` is `-1`. -/
def position : Option Nat → Int
  | some place => int32 place
  | none => -1

theorem position_none : position none = -1 := rfl

theorem position_some {place : Nat} (small : place < 2 ^ 31) : position (some place) = place :=
  int32_of_lt small

/-- `find` from a `long` on. A negative one is a `size_t` beyond every string. -/
def findAt (pattern text : Bytes) (start : Int) : Option Nat :=
  if start < 0 then none else findFrom pattern text start.toNat

theorem findAt_natCast (pattern text : Bytes) (start : Nat) :
    findAt pattern text start = findFrom pattern text start := by
  rw [findAt, if_neg (by omega), Int.toNat_natCast]

/-- `std::string::substr` at `long`s: it throws for a place beyond the string, and a negative
count takes all that is left. -/
def substr (text : Bytes) (place count : Int) : Option Bytes :=
  if place < 0 ∨ text.length < place then none
  else if count < 0 then some (text.drop place.toNat)
  else some ((text.drop place.toNat).take count.toNat)

theorem substr_natCast {text : Bytes} {place : Nat} (inside : place ≤ text.length) (count : Nat) :
    substr text place count = some ((text.drop place).take count) := by
  rw [substr, if_neg (by omega), if_neg (by omega), Int.toNat_natCast, Int.toNat_natCast]

theorem substr_rest {text : Bytes} {place : Nat} {count : Int} (inside : place ≤ text.length)
    (negative : count < 0) : substr text place count = some (text.drop place) := by
  rw [substr, if_neg (by omega), if_pos negative, Int.toNat_natCast]

/-- `std::string::rfind` of one character. -/
def rfind (char : Byte) (text : Bytes) : Option Nat :=
  (text.reverse.idxOf? char).map fun back => text.length - 1 - back

def contains (text pattern : Bytes) : Bool := (find pattern text).isSome

def stringToUpper (text : Bytes) : Bytes :=
  text.map fun char => if 97 ≤ char ∧ char ≤ 122 then char - 32 else char

/-- The substrings between the delimiters. An empty delimiter splits nothing here; the source
never has one. -/
def splitAll (delimiter buf : Bytes) : List Bytes :=
  match _found : find delimiter buf with
  | some pos =>
      if 0 < delimiter.length then
        buf.take pos :: splitAll delimiter (buf.drop (pos + delimiter.length))
      else [buf]
  | none => [buf]
  termination_by buf.length
  decreasing_by
    have within := StringUtil.find_le _found
    rw [List.length_drop]
    omega

/-- Empty substrings are left out. -/
def splitString (str delimiter : Bytes) : List Bytes :=
  (splitAll delimiter str).filter fun part => !part.isEmpty

def findOneOf (text : Bytes) : Bytes → Option Nat
  | [] => none
  | pattern :: rest =>
      match text.idxOf? pattern with
      | some pos => some pos
      | none => findOneOf text rest

def trim (text : Bytes) : Bytes :=
  ((text.dropWhile (· == 32)).reverse.dropWhile (· == 32)).reverse

/-- The overload for wide strings keeps what is behind the last character that is no blank.
If that is anything, its second loop never ends. -/
def trimWide (text : Wide) : Option Wide :=
  if text.all (· == 32) then some []
  else if text.getLast? = some 32 then none
  else some []

/-! ## Encoded words -/

inductive CHARSET_TYPE_ID
  | GB2312
  | UTF8
  | GBK
  | ASCII
  deriving DecidableEq

def getCharset (data : Bytes) : CHARSET_TYPE_ID :=
  let strCharset := stringToUpper (cString data)
  if strCharset = ascii "UTF-8" then .UTF8
  else if strCharset = ascii "GB2312" then .GB2312
  else if strCharset = ascii "GBK" then .GBK
  else .GB2312

def findCharset (data : Bytes) : CHARSET_TYPE_ID :=
  let strCharset := stringToUpper (cString data)
  if contains strCharset (ascii "UTF-8") then .UTF8
  else if contains strCharset (ascii "GB2312") then .GB2312
  else if contains strCharset (ascii "GBK") then .GBK
  else if contains strCharset (ascii "7BIT") then .ASCII
  else .GB2312

/-- The text up to the length of a `long`. -/
def upTo (text : Bytes) (count : Int) : Bytes :=
  if count < 0 then text else text.take count.toNat

/-- Where the text in front of the last `?=` ends; without one it is all but the last byte. -/
def phaseEnd (strPhase : Bytes) : Int :=
  let lPhaseEnd := position (rfind 63 strPhase)
  let equals : Int := match rfind 61 strPhase with
    | some place => place
    | none => -1
  if lPhaseEnd = -1 ∨ equals ≠ signed 32 (lPhaseEnd + 1) then signed 32 (strPhase.length - 1)
  else lPhaseEnd

/-- The text between `=?` and `?=`, and its length as the loop counts it, which is `-1` for no
text at all. -/
def phase (strData : Bytes) : Bytes × Int :=
  let strPhase := upTo strData (position (findOneOf strData [0x09, 0x0A, 0x0D, 0x20]))
  (upTo strPhase (phaseEnd strPhase), phaseEnd strPhase)

/-- The decoded text of a word in the given code. `strTemp` is what the word before left; the
buffer for quoted-printable has 128 bytes. -/
def decodeWord (platform : Platform) (cCodeType : Byte) (strPhase strTemp : Bytes) :
    Option Bytes :=
  if cCodeType = 98 ∨ cCodeType = 66 then some (Base64Util.decode platform strPhase)
  else if cCodeType = 113 ∨ cCodeType = 81 then
    let szDest := EncodeUtil.DecodeQuotedPrintable platform strPhase
    if szDest.length < 128 then some (cString szDest) else none
  else some strTemp

/-- What stands behind the first question mark, or all of it if there is none. -/
def behindMark (text : Bytes) : Option Bytes :=
  substr text (signed 32 (position (text.idxOf? 63) + 1)) (-1)

/-- The loop of `analyzeString`. -/
def analyzeStringLoop (platform : Platform) (strData : Bytes) : (turns : Nat) →
    (lOffset : Int) → (strTemp : Bytes) → (strResult : Wide) → Option Wide
  | 0, _, _, _ => none
  | turns + 1, lOffset, strTemp, strResult =>
      let lOffset := position (findAt (ascii "=?") strData lOffset)
      if lOffset < 0 then some strResult
      else do
        let lOffset := signed 32 (lOffset + 2)
        let (strPhase, lPhaseEnd) := phase (← substr strData lOffset (-1))
        let strCharset := upTo strPhase (position (strPhase.idxOf? 63))
        let strPhase ← behindMark strPhase
        let cCodeType := strPhase.getD 0 0
        let strPhase ← behindMark strPhase
        if strPhase.isEmpty then
          analyzeStringLoop platform strData turns lOffset strTemp strResult
        else
          let strTemp ← decodeWord platform cCodeType strPhase strTemp
          let strUnicode := match getCharset strCharset with
            | .UTF8 => EncodeUtil.UTF8ToUnicode platform strTemp
            | _ => EncodeUtil.GB2312ToUnicode platform strTemp
          analyzeStringLoop platform strData turns
            (signed 32 (lOffset + signed 32 (lPhaseEnd + 1))) strTemp (strResult ++ strUnicode)

/-- More turns than there are bytes are taken by a loop only that never ends. -/
def analyzeString (platform : Platform) (strData : Bytes) : Option Wide :=
  if position (findFrom (ascii "=?") strData 0) = -1 then some (EncodeUtil.s2ws platform strData)
  else analyzeStringLoop platform strData (strData.length + 1) 0 [] []

/-! ## Headers -/

def EMAIL_TAG_LIST : List Bytes :=
  [ascii "SUBJECT:", ascii "DATE:", ascii "MESSAGE-ID:", ascii "FROM:", ascii "CONTENT-TYPE:",
    ascii "CONTENT-TRANSFER-ENCODING:"]

/-- What `analyzeTag` carries through its loop. -/
structure TagState where
  mapString : List (Bytes × Bytes)
  strTag : Bytes
  strContent : Bytes

/-- `std::map::insert` keeps an entry that is there. -/
def TagState.insert (state : TagState) : TagState :=
  if state.strTag = [] then state
  else
    { state with
      mapString := if (state.mapString.lookup state.strTag).isSome then state.mapString
        else state.mapString ++ [(state.strTag, state.strContent)]
      strTag := [] }

def TagState.matchTag (state : TagState) (strItem : Bytes) : TagState :=
  EMAIL_TAG_LIST.foldl (fun state tag =>
    if find tag (stringToUpper strItem) = some 0 then
      { state with strTag := tag, strContent := strItem.drop tag.length }
    else state) state

/-- A line of the part; `last` holds for the last one. -/
def TagState.step (state : TagState) (last : Bool) (strItem : Bytes) : TagState :=
  match strItem with
  | [] => state
  | first :: _ =>
      if first = 0x20 ∨ first = 0x09 then
        if state.strTag = [] then state
        else { state with strContent := state.strContent ++ strItem }
      else
        let state := state.insert.matchTag strItem
        if last then state.insert else state

def analyzeTagLoop : List Bytes → TagState → TagState
  | [], state => state
  | strItem :: rest, state => analyzeTagLoop rest (state.step rest.isEmpty strItem)

def analyzeTag (vecString : List Bytes) : List (Bytes × Bytes) :=
  (analyzeTagLoop vecString ⟨[], [], []⟩).mapString

/-! ## One part of a mail -/

inductive TEXT_TYPE_ID
  | UNKNOWN
  | PLAIN
  | HTML
  | APPLICATION
  deriving DecidableEq

inductive ENCODE_TYPE_ID
  | UNKNOWN
  | BASE64
  | QUOTE_PRINTABLE
  | ENCODE_7_BIT
  deriving DecidableEq

/-- What `analyzeBoundary` makes of a part: the type that it returns, the text, the attachment
and its file name. -/
structure PartResult where
  lType : TEXT_TYPE_ID
  strResult : Wide
  strAttachment : Bytes
  strFileName : Wide
  deriving DecidableEq

/-- The file name behind `name="`, which `start` is the place of. -/
def quotedName (platform : Platform) (value : Bytes) (start : Nat) : Option Wide :=
  let strTemp2 := match findFrom (ascii "\"") (stringToUpper value) (start + 6) with
    | some lEnd => trim (value.slice (start + 6) lEnd)
    | none => trim []
  if strTemp2.isEmpty then some [] else analyzeString platform strTemp2

/-- The file name behind a `name=` without a quotation mark directly behind it: the text from
the next quotation mark on, with it. -/
def unquotedName (platform : Platform) (value : Bytes) : Option Wide :=
  match (findFrom (ascii "NAME=") (stringToUpper value) 0).bind fun start =>
      findFrom (ascii "\"") (stringToUpper value) (start + 5) with
  | none => some []
  | some start =>
      let strTemp2 := match findFrom (ascii "\"") (stringToUpper value) (start + 1) with
        | some lEnd => trim (value.slice start lEnd)
        | none => trim []
      if strTemp2.isEmpty then some [] else analyzeString platform strTemp2

/-- The type of the part and the file name, from the content of its `Content-Type`. -/
def contentType (platform : Platform) (value : Bytes) : Option (TEXT_TYPE_ID × Wide) :=
  let strTemp := stringToUpper value
  if contains strTemp (ascii "TEXT/PLAIN") then some (.PLAIN, [])
  else if contains strTemp (ascii "TEXT/HTML") then
    match findFrom (ascii "NAME=\"") strTemp 0 with
    | none => some (.HTML, [])
    | some start => (quotedName platform value start).map fun name => (.APPLICATION, name)
  else if contains strTemp (ascii "APPLICATION") then
    match findFrom (ascii "NAME=\"") strTemp 0 with
    | some start => (quotedName platform value start).map fun name => (.APPLICATION, name)
    | none => (unquotedName platform value).map fun name => (.APPLICATION, name)
  else some (.UNKNOWN, [])

def contentEncoding (value : Bytes) : ENCODE_TYPE_ID :=
  let strTemp := stringToUpper value
  if contains strTemp (ascii "BASE64") then .BASE64
  else if contains strTemp (ascii "QUOTED-PRINTABLE") then .QUOTE_PRINTABLE
  else if contains strTemp (ascii "7BIT") then .ENCODE_7_BIT
  else .UNKNOWN

/-- The body of the part; of a base64 body only what is in front of the first empty line. -/
def partBody (strData : Bytes) (lEncode : ENCODE_TYPE_ID) : Option Bytes :=
  match (findFrom (ascii "Content-Type:") strData 0).bind fun lStart =>
      findFrom (ascii "\r\n\r\n") strData lStart with
  | none => none
  | some lEnd =>
      let strBody := strData.drop (lEnd + 4)
      if lEncode = .BASE64 then
        match find (ascii "\r\n\r\n") strBody with
        | some lEnd => some (strBody.take lEnd)
        | none => some strBody
      else some strBody

def decodeBody (platform : Platform) (lEncode : ENCODE_TYPE_ID) (strBody : Bytes) : Bytes :=
  match lEncode with
  | .BASE64 => Base64Util.decode platform strBody
  | .QUOTE_PRINTABLE => cString (EncodeUtil.DecodeQuotedPrintable platform strBody)
  | _ => strBody

def bodyText (platform : Platform) (lEncode : ENCODE_TYPE_ID) (charset : CHARSET_TYPE_ID)
    (strContent : Bytes) : Wide :=
  if charset = .UTF8 then EncodeUtil.UTF8ToUnicode platform strContent
  else if lEncode = .ENCODE_7_BIT then EncodeUtil.AnsiToUnicode platform strContent
  else EncodeUtil.GB2312ToUnicode platform strContent

/-- `analyzeBoundary` of one part. -/
def analyzePart (platform : Platform) (strData : Bytes) : Option PartResult := do
  let mapString := analyzeTag (splitString strData (ascii "\r\n"))
  let (lType, strFileName) ← match mapString.lookup (ascii "CONTENT-TYPE:") with
    | some value => contentType platform value
    | none => some (.UNKNOWN, [])
  let charset := match mapString.lookup (ascii "CONTENT-TYPE:") with
    | some value => findCharset (stringToUpper value)
    | none => .GB2312
  let lEncode := match mapString.lookup (ascii "CONTENT-TRANSFER-ENCODING:") with
    | some value => contentEncoding value
    | none => .UNKNOWN
  if lType = .UNKNOWN ∨ lEncode = .UNKNOWN then
    some ⟨.UNKNOWN, [], [], strFileName⟩
  else
    match partBody strData lEncode with
    | none => some ⟨.UNKNOWN, [], [], strFileName⟩
    | some strBody =>
        let strContent := decodeBody platform lEncode strBody
        if lType = .APPLICATION then some ⟨lType, [], strContent, strFileName⟩
        else some ⟨lType, bodyText platform lEncode charset strContent, [], strFileName⟩

/-! ## The parser -/

structure MailHelper where
  bIsFromMobilePlatform : Bool
  strMail : Bytes
  vecBoundary : List Bytes
  vecText : List Wide
  vecHTML : List Wide
  vecAttachment : List (Wide × Bytes)
  deriving DecidableEq

namespace MailHelper

def create : MailHelper := ⟨false, [], [], [], [], []⟩

/-- The loop of `getBoundaryTag`, with what it has appended to `m_vecBoundary`. Without a
closing quotation mark it starts again from the beginning. -/
def tagLoop (strMail : Bytes) : (turns : Nat) → (lStart : Int) → (vecBoundary : List Bytes) →
    Option (List Bytes)
  | 0, _, _ => none
  | turns + 1, lStart, vecBoundary =>
      let lStart := position (findAt (ascii "boundary=\"") strMail lStart)
      if lStart = -1 then some vecBoundary
      else do
        let lBegin := signed 32 (lStart + 10)
        let lEnd := position (findAt (ascii "\"") strMail lBegin)
        let strItem ← substr strMail lBegin (signed 32 (signed 32 (lEnd - lStart) - 10))
        tagLoop strMail turns (signed 32 (lEnd + 1)) (vecBoundary ++ [strItem])

/-- More turns than there are bytes are taken by a loop only that never ends. -/
def boundaryTags (strMail : Bytes) : Option (List Bytes) :=
  tagLoop strMail (strMail.length + 1) 0 []

def getBoundaryTag (helper : MailHelper) : Option (Bool × MailHelper) :=
  (boundaryTags helper.strMail).map fun tags =>
    (!tags.isEmpty, { helper with vecBoundary := tags })

def looksMobile (strMail : Bytes) : Bool :=
  contains strMail (ascii "Content-Type") && contains strMail (ascii "text/plain") &&
    contains strMail (ascii "Content-Transfer-Encoding") && contains strMail (ascii "base64") &&
    (contains strMail (ascii "gb2312") || contains strMail (ascii "utf-8"))

/-- The text between the headers and the final dot, if the mail has both. -/
def mobileBody (strMail : Bytes) : Option Bytes :=
  match find (ascii "\r\n\r\n") strMail, find (ascii "\r\n.\r\n") strMail with
  | some lIndex1, some lIndex2 =>
      if lIndex1 < lIndex2 then
        some ((strMail.drop (lIndex1 + 3)).take (lIndex2 - lIndex1 - 2))
      else none
  | _, _ => none

def mobileText (platform : Platform) (strMail body : Bytes) : Wide :=
  let strDecoded := Base64Util.decode platform body
  if contains strMail (ascii "gb2312") then EncodeUtil.GB2312ToUnicode platform strDecoded
  else if contains strMail (ascii "utf-8") then EncodeUtil.UTF8ToUnicode platform strDecoded
  else []

def detectMobilePlatform (platform : Platform) (helper : MailHelper) :
    Option (Bool × MailHelper) :=
  if looksMobile helper.strMail then
    match mobileBody helper.strMail with
    | some body =>
        (trimWide (mobileText platform helper.strMail body)).map fun strResult =>
          (true, { helper with
            vecText := helper.vecText ++ [strResult]
            bIsFromMobilePlatform := true })
    | none => some (helper.bIsFromMobilePlatform, helper)
  else some (helper.bIsFromMobilePlatform, helper)

def isExistBoundary (helper : MailHelper) (strData exclude : Bytes) : Bool :=
  helper.vecBoundary.any fun boundary => boundary != cString exclude && contains strData boundary

/-- The loop that looks for a name not yet in use: at most ten names are tried. -/
def insertAttachment (platform : Platform) (strAttachment : Bytes) :
    Nat → Nat → Wide → List (Wide × Bytes) → List (Wide × Bytes)
  | 0, _, _, attachments => attachments
  | tries + 1, i, strFileName, attachments =>
      if (attachments.lookup strFileName).isNone then
        attachments ++ [(strFileName, strAttachment)]
      else
        insertAttachment platform strAttachment tries (i + 1)
          (EncodeUtil.AnsiToUnicode platform
            (ascii "(" ++ ascii (toString (i + 1)) ++ ascii ")") ++ strFileName) attachments

def record (platform : Platform) (helper : MailHelper) (part : PartResult) : MailHelper :=
  if part.strResult.isEmpty ∧ part.lType ≠ .APPLICATION then helper
  else
    match part.lType with
    | .PLAIN => { helper with vecText := helper.vecText ++ [part.strResult] }
    | .HTML => { helper with vecHTML := helper.vecHTML ++ [part.strResult] }
    | .APPLICATION =>
        { helper with
          vecAttachment := insertAttachment platform part.strAttachment 10 0 part.strFileName
            helper.vecAttachment }
    | .UNKNOWN => helper

/-- Whether a piece between two delimiters is taken for a part. -/
def isPart (helper : MailHelper) (strBoundary strItem : Bytes) : Bool :=
  !strItem.isEmpty && !contains strItem (ascii "boundary=") &&
    contains strItem (ascii "Content-Type") && !helper.isExistBoundary strItem strBoundary

/-- The loop body of `analyzeBoundary`. -/
def analyzePiece (platform : Platform) (strBoundary : Bytes) (helper : MailHelper)
    (strItem : Bytes) : Option MailHelper :=
  if helper.isPart strBoundary strItem then
    (analyzePart platform strItem).map (helper.record platform)
  else some helper

/-- `analyzeBoundary` of one boundary. -/
def analyzeBoundary (platform : Platform) (strBoundary : Bytes) (helper : MailHelper) :
    Option MailHelper :=
  (splitString helper.strMail (cString (ascii "--" ++ strBoundary))).foldlM
    (analyzePiece platform strBoundary) helper

/-- The attachments that are written, with the names of their files. -/
def writtenFiles (platform : Platform) (helper : MailHelper) : List (Bytes × Bytes) :=
  (helper.vecAttachment.filter fun attachment =>
    !attachment.1.isEmpty && !attachment.2.isEmpty &&
      platform.opens (EncodeUtil.UnicodeToUtf8 platform attachment.1)).map fun attachment =>
    (EncodeUtil.UnicodeToUtf8 platform attachment.1, attachment.2)

/-- The result, the files written, and the members afterwards. -/
def analyzeBody (platform : Platform) (strBody : Bytes) (helper : MailHelper) :
    Option (Bool × List (Bytes × Bytes) × MailHelper) := do
  if strBody.isEmpty then return (false, [], helper)
  let (tagged, helper) ← getBoundaryTag { helper with strMail := strBody }
  let (detected, helper) ←
    if tagged then some (true, helper) else detectMobilePlatform platform helper
  if !detected then return (false, [], helper)
  let helper ← helper.vecBoundary.foldlM (fun helper boundary =>
    helper.analyzeBoundary platform boundary) helper
  return (true, helper.writtenFiles platform, helper)

end MailHelper

end MyBookSources.RecvMail
