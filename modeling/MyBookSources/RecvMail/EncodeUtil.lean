import MyBookSources.Foundation.Bytes

/-! # Encodings of a received mail

`EncodeUtil` and `Base64Util` as far as the parser of mails uses them. The conversions between
code pages belong to the system.
-/

namespace MyBookSources.RecvMail

/-- A `std::wstring`, whose characters have 16 bits. -/
abbrev Wide := List UInt16

inductive CodePage
  | acp
  | utf8
  | gb2312
  deriving DecidableEq

/-- What the parser finds in the system: the conversions, all of strings that end with a zero,
whether a file can be opened and written, and what memory holds around the table of `decode`
and behind the end of a string. -/
structure Platform where
  multiByteToWideChar : CodePage → Bytes → Wide
  mbstowcs : Bytes → Wide
  wideCharToMultiByte : Wide → Bytes
  opens : Bytes → Bool
  table : Int → BitVec 8
  behind : Nat → Byte

namespace EncodeUtil

variable (platform : Platform)

def AnsiToUnicode (text : Bytes) : Wide := platform.multiByteToWideChar .acp (cString text)

def UTF8ToUnicode (text : Bytes) : Wide := platform.multiByteToWideChar .utf8 (cString text)

def GB2312ToUnicode (text : Bytes) : Wide := platform.multiByteToWideChar .gb2312 (cString text)

def s2ws (text : Bytes) : Wide := platform.mbstowcs (cString text)

def UnicodeToUtf8 (text : Wide) : Bytes := platform.wideCharToMultiByte (text.takeWhile (· ≠ 0))

/-- The byte at a position of a string, of its final zero, or of the memory behind it. -/
def byteAt (text : Bytes) (position : Nat) : Byte :=
  if position < text.length then text.getD position 0
  else if position = text.length then 0
  else platform.behind (position - text.length - 1)

theorem byteAt_of_drop {text : Bytes} {data : Nat} {char : Byte} (count : Nat)
    (found : (text.drop data)[count]? = some char) :
    byteAt platform text (data + count) = char := by
  rw [List.getElem?_drop, List.getElem?_eq_some_iff] at found
  rcases found with ⟨inside, rfl⟩
  rw [byteAt, if_pos inside, List.getD_eq_getElem?_getD, List.getElem?_eq_getElem inside]
  rfl

theorem byteAt_length (text : Bytes) : byteAt platform text text.length = 0 := by
  rw [byteAt, if_neg (Nat.lt_irrefl _), if_pos rfl]

theorem byteAt_length_succ (text : Bytes) :
    byteAt platform text (text.length + 1) = platform.behind 0 := by
  rw [byteAt, if_neg (by omega), if_neg (by omega), Nat.add_sub_cancel_left]

/-! ## Quoted-printable -/

/-- A digit, as the decoder computes it from a signed `char`. -/
def digitValue (char : Byte) : Byte :=
  if char < 0x41 ∨ 0x80 ≤ char then char - 0x30
  else if char < 0x61 then char - 0x37
  else char - 0x57

def lineEnd (char : Byte) : Bool := char == 0x0D || char == 0x0A

/-- The loop of `DecodeQuotedPrintable`: from `before` on, nothing is copied yet. -/
def quotedPrintableLoop (pSrc : Bytes) (offset before : Nat) : Bytes :=
  if offset < pSrc.length then
    if byteAt platform pSrc offset ≠ 61 then quotedPrintableLoop pSrc (offset + 1) before
    else
      pSrc.slice before offset ++
        if lineEnd (byteAt platform pSrc (offset + 1)) then
          if lineEnd (byteAt platform pSrc (offset + 2)) then
            quotedPrintableLoop pSrc (offset + 3) (offset + 3)
          else quotedPrintableLoop pSrc (offset + 2) (offset + 2)
        else
          ((digitValue (byteAt platform pSrc (offset + 1)) <<< 4) |||
            (digitValue (byteAt platform pSrc (offset + 2)) &&& 0x0F)) ::
            quotedPrintableLoop pSrc (offset + 3) (offset + 3)
  else pSrc.drop before
  termination_by pSrc.length - offset

/-- All that `DecodeQuotedPrintable` writes in front of the final zero. -/
def DecodeQuotedPrintable (text : Bytes) : Bytes :=
  quotedPrintableLoop platform (cString text) 0 0

end EncodeUtil

/-! ## Base64 -/

namespace Base64Util

def DECODE_TABLE : List Nat :=
  List.replicate 43 0 ++ [62] ++ List.replicate 3 0 ++ [63] ++ List.range' 52 10 ++
    List.replicate 7 0 ++ List.range' 0 26 ++ List.replicate 6 0 ++ List.range' 26 26

/-- The table at a `char`, which is signed, as an `int`. -/
def tableAt (platform : Platform) (char : Byte) : BitVec 32 :=
  let index := char.toBitVec.toInt
  if 0 ≤ index ∧ index < 123 then BitVec.ofNat 32 (DECODE_TABLE.getD char.toNat 0)
  else (platform.table index).signExtend 32

/-- The loop of `decode`, at the byte `data` with `i` bytes counted. A group counts four bytes,
also where padding leaves some of them to be read again. The count stays an `int` as long as
`nDataByte` is below `2 ^ 31 - 3`; from there on only a group that begins in the last three bytes
could pass it. -/
def decodeLoop (platform : Platform) (text : Bytes) (nDataByte : Int) (data i : Nat) : Bytes :=
  if i < nDataByte then
    let char := EncodeUtil.byteAt platform text
    if char data ≠ 13 ∧ char data ≠ 10 then
      let two := (tableAt platform (char data) <<< 18) + (tableAt platform (char (data + 1)) <<< 12)
      let first := UInt8.ofBitVec ((two >>> 16).setWidth 8)
      if char (data + 2) ≠ 61 then
        let three := two + (tableAt platform (char (data + 2)) <<< 6)
        let second := UInt8.ofBitVec ((three >>> 8).setWidth 8)
        if char (data + 3) ≠ 61 then
          let four := three + tableAt platform (char (data + 3))
          first :: second :: UInt8.ofBitVec (four.setWidth 8) ::
            decodeLoop platform text nDataByte (data + 4) (i + 4)
        else first :: second :: decodeLoop platform text nDataByte (data + 3) (i + 4)
      else first :: decodeLoop platform text nDataByte (data + 2) (i + 4)
    else decodeLoop platform text nDataByte (data + 1) (i + 1)
  else []
  termination_by (nDataByte - i).toNat
  decreasing_by all_goals omega

/-- The parser passes the length of its string, which becomes an `int`. -/
def decode (platform : Platform) (text : Bytes) : Bytes :=
  decodeLoop platform text (int32 text.length) 0 0

end Base64Util

end MyBookSources.RecvMail
