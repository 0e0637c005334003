import MyBookSources.Foundation.Bytes
import MyBookSources.Foundation.Draining

/-! # The thread that puts fragments together

`CSocketClient::RecvDataThreadProc`. A package has a head of 20 bytes; a message that does not
fit in one package comes in several, which are numbered from 0. `CheckPkgHead` is not in the
sources and is a parameter.
-/

namespace MyBookSources.PackageFragments

/-- The head of a package, with the values that `ntohs` gives. -/
structure NtPkgHead where
  bStartFlag : Byte
  bVer : Byte
  bEncryptFlag : Byte
  bFrag : Byte
  wLen : UInt16
  wCmd : UInt16
  wSeq : UInt16
  wCrc : UInt16
  dwSID : UInt32
  wTotal : UInt16
  wCurSeq : UInt16
deriving DecidableEq

/-- `sizeof(NtPkgHead)`. -/
def headSize : Nat := 20

namespace NtPkgHead

def bytes (pkgHead : NtPkgHead) : Bytes :=
  [pkgHead.bStartFlag, pkgHead.bVer, pkgHead.bEncryptFlag, pkgHead.bFrag] ++
    BigEndian.encode 2 pkgHead.wLen.toNat ++ BigEndian.encode 2 pkgHead.wCmd.toNat ++
    BigEndian.encode 2 pkgHead.wSeq.toNat ++ BigEndian.encode 2 pkgHead.wCrc.toNat ++
    BigEndian.encode 4 pkgHead.dwSID.toNat ++ BigEndian.encode 2 pkgHead.wTotal.toNat ++
    BigEndian.encode 2 pkgHead.wCurSeq.toNat

def short (buffer : Bytes) (offset : Nat) : UInt16 :=
  UInt16.ofNat (BigEndian.decode (buffer.slice offset (offset + 2)))

/-- The `memcpy` of a head from the front of the buffer. -/
def read (buffer : Bytes) : NtPkgHead where
  bStartFlag := buffer.getD 0 0
  bVer := buffer.getD 1 0
  bEncryptFlag := buffer.getD 2 0
  bFrag := buffer.getD 3 0
  wLen := short buffer 4
  wCmd := short buffer 6
  wSeq := short buffer 8
  wCrc := short buffer 10
  dwSID := UInt32.ofNat (BigEndian.decode (buffer.slice 12 16))
  wTotal := short buffer 16
  wCurSeq := short buffer 18

theorem length_bytes (pkgHead : NtPkgHead) : pkgHead.bytes.length = headSize := by
  simp [bytes, headSize]

theorem read_take {buffer : Bytes} {size : Nat} (whole : headSize ≤ size) :
    read (buffer.take size) = read buffer := by
  have byte {index : Nat} (inside : index < 20) :
      (buffer.take size).getD index 0 = buffer.getD index 0 := by
    rw [headSize] at whole
    rw [List.getD_eq_getElem?_getD, List.getD_eq_getElem?_getD, List.getElem?_take_of_lt (by omega)]
  have part {first last : Nat} (inside : last ≤ 20) :
      Bytes.slice (buffer.take size) first last = buffer.slice first last := by
    rw [headSize] at whole
    rw [Bytes.slice, Bytes.slice, List.take_take, Nat.min_eq_left (by omega)]
  simp only [read, short]
  rw [byte (by decide), byte (by decide), byte (by decide), byte (by decide), part (by decide),
    part (by decide), part (by decide), part (by decide), part (by decide), part (by decide),
    part (by decide)]

theorem read_append {buffer : Bytes} (whole : headSize ≤ buffer.length) (later : Bytes) :
    read (buffer ++ later) = read buffer := by
  rw [← read_take whole, List.take_left]

theorem short_encode (value : UInt16) :
    UInt16.ofNat (BigEndian.decode (BigEndian.encode 2 value.toNat)) = value := by
  rw [BigEndian.decode_encode value.toNat_lt, UInt16.ofNat_toNat]

theorem read_bytes (pkgHead : NtPkgHead) (later : Bytes) :
    read (pkgHead.bytes ++ later) = pkgHead := by
  have session : UInt32.ofNat (BigEndian.decode (BigEndian.encode 4 pkgHead.dwSID.toNat)) =
      pkgHead.dwSID := by
    rw [BigEndian.decode_encode pkgHead.dwSID.toNat_lt, UInt32.ofNat_toNat]
  rw [read_append (by rw [length_bytes])]
  cases pkgHead with
  | mk bStartFlag bVer bEncryptFlag bFrag wLen wCmd wSeq wCrc dwSID wTotal wCurSeq =>
      simp only [NtPkgHead.mk.injEq, read, short]
      refine ⟨rfl, rfl, rfl, rfl, short_encode wLen, short_encode wCmd, short_encode wSeq,
        short_encode wCrc, session, short_encode wTotal, short_encode wCurSeq⟩

end NtPkgHead

structure ProxyPackage where
  nCmd : UInt16
  nLength : UInt32
  pszJson : Bytes
deriving DecidableEq

inductive Effect
  | addPackage (proxyPackage : ProxyPackage)
  | reconnect
deriving DecidableEq

structure TotalPkg where
  strTotalPkg : Bytes
  uTotalPkgLen : UInt32
deriving DecidableEq

namespace TotalPkg

def empty : TotalPkg where
  strTotalPkg := []
  uTotalPkgLen := 0

/-- The body of a package, whose number is 0 in front of a new message. -/
def appendBody (totalPkg : TotalPkg) (uCurSeq : UInt16) (body : Bytes) : TotalPkg :=
  let totalPkg := if uCurSeq = 0 then empty else totalPkg
  { strTotalPkg := totalPkg.strTotalPkg ++ body
    uTotalPkgLen := totalPkg.uTotalPkgLen + UInt32.ofNat body.length }

/-- `memcpy_s` does not copy more than there is room for. -/
def proxyPackage (totalPkg : TotalPkg) (uCmd : UInt16) : Option ProxyPackage :=
  if totalPkg.uTotalPkgLen.toNat < totalPkg.strTotalPkg.length then none
  else some { nCmd := uCmd, nLength := totalPkg.uTotalPkgLen,
              pszJson := totalPkg.strTotalPkg.resize totalPkg.uTotalPkgLen.toNat }

/-- A whole package. One that is shorter than its head would be read outside. -/
def takePkg (totalPkg : TotalPkg) (pkgHead : NtPkgHead) (strPkg : Bytes) :
    Option (TotalPkg × List Effect) :=
  if strPkg.length < headSize then none
  else
    let totalPkg := totalPkg.appendBody pkgHead.wCurSeq (strPkg.drop headSize)
    if pkgHead.wTotal = 0 ∨ pkgHead.wTotal.toNat = pkgHead.wCurSeq.toNat + 1 then
      (totalPkg.proxyPackage pkgHead.wCmd).map fun proxyPackage =>
        (totalPkg, [.addPackage proxyPackage])
    else some (totalPkg, [])

theorem headSize_le_of_takePkg {totalPkg next : TotalPkg} {pkgHead : NtPkgHead} {strPkg : Bytes}
    {effects : List Effect} (taken : totalPkg.takePkg pkgHead strPkg = some (next, effects)) :
    headSize ≤ strPkg.length := by
  rw [takePkg] at taken
  split at taken
  · cases taken
  · next whole => exact Nat.le_of_not_lt whole

end TotalPkg

/-- What a turn of the outer loop finds: no data, data for `Recv`, or an error of `Recv`. -/
inductive Turn
  | idle
  | received (data : Bytes)
  | failed
deriving DecidableEq

/-- The buffer of the socket and what the thread keeps from turn to turn. -/
structure RecvDataThread where
  m_strRecvBuf : Bytes
  totalPkg : TotalPkg
deriving DecidableEq

namespace RecvDataThread

def start : RecvDataThread where
  m_strRecvBuf := []
  totalPkg := .empty

section

variable (CheckPkgHead : NtPkgHead → Bool)

def innerLoop (totalPkg : TotalPkg) (m_strRecvBuf : Bytes) :
    Option (RecvDataThread × List Effect) :=
  let pkgHead := NtPkgHead.read m_strRecvBuf
  let uPkgLen := pkgHead.wLen.toNat
  if m_strRecvBuf.length < headSize then
    some ({ m_strRecvBuf := m_strRecvBuf, totalPkg := totalPkg }, [])
  else if !CheckPkgHead pkgHead then
    some ({ m_strRecvBuf := [], totalPkg := totalPkg }, [.reconnect])
  else if m_strRecvBuf.length < uPkgLen then
    some ({ m_strRecvBuf := m_strRecvBuf, totalPkg := totalPkg }, [])
  else
    match _taken : totalPkg.takePkg pkgHead (m_strRecvBuf.take uPkgLen) with
    | none => none
    | some (next, effects) =>
        (innerLoop next (m_strRecvBuf.drop uPkgLen)).map fun (last, others) =>
          (last, effects ++ others)
termination_by m_strRecvBuf.length
decreasing_by
  have whole : headSize ≤ (m_strRecvBuf.take (NtPkgHead.read m_strRecvBuf).wLen.toNat).length :=
    TotalPkg.headSize_le_of_takePkg _taken
  rw [List.length_take, headSize] at whole
  rw [List.length_drop]
  omega

def outerTurn (thread : RecvDataThread) : Turn → Option (RecvDataThread × List Effect)
  | .idle => some (thread, [])
  | .received data => innerLoop CheckPkgHead thread.totalPkg (thread.m_strRecvBuf ++ data)
  | .failed => some ({ thread with m_strRecvBuf := [] }, [.reconnect])

def run (thread : RecvDataThread) : List Turn → Option (RecvDataThread × List Effect)
  | [] => some (thread, [])
  | turn :: turns => do
      let (next, effects) ← outerTurn CheckPkgHead thread turn
      let (last, others) ← run next turns
      some (last, effects ++ others)

end

end RecvDataThread

end MyBookSources.PackageFragments
