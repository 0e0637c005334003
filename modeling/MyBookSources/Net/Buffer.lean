import MyBookSources.Net.Sockets

/-! # The connection buffer

`net::Buffer`: one vector holding prependable, readable and writable bytes in
that order. Index sums and differences are `size_t` values, so they wrap.
-/

namespace MyBookSources.Net

structure Buffer where
  buffer : Bytes
  readerIndex : Nat
  writerIndex : Nat
  deriving DecidableEq

/-- The two branches of `Buffer::readFd`: `readv` into the vector and a stack
buffer, and `recv` into the stack buffer alone. -/
inductive Platform
  | posix
  | windows
  deriving DecidableEq

namespace Buffer

def kCheapPrepend : Nat := 8

def kInitialSize : Nat := 1024

/-- `sizeof extrabuf`. -/
def extrabufSize : Nat := 65536

/-- `Buffer(size_t initialSize)`. -/
def create (initialSize : Nat) : Buffer where
  buffer := List.replicate (sizeAdd kCheapPrepend initialSize) 0
  readerIndex := kCheapPrepend
  writerIndex := kCheapPrepend

def readableBytes (buf : Buffer) : Nat := sizeSub buf.writerIndex buf.readerIndex

def writableBytes (buf : Buffer) : Nat := sizeSub buf.buffer.length buf.writerIndex

def prependableBytes (buf : Buffer) : Nat := buf.readerIndex

/-- The readable bytes, from `peek()` up to `beginWrite()`. -/
def readable (buf : Buffer) : Bytes :=
  buf.buffer.slice buf.readerIndex buf.writerIndex

def retrieveAll (buf : Buffer) : Buffer :=
  { buf with readerIndex := kCheapPrepend, writerIndex := kCheapPrepend }

def retrieve (buf : Buffer) (len : Nat) : Bool × Buffer :=
  if buf.readableBytes < len then (false, buf)
  else if len < buf.readableBytes then
    (true, { buf with readerIndex := sizeAdd buf.readerIndex len })
  else (true, buf.retrieveAll)

/-- The pointer `stop` is given as its offset from the start of the vector. -/
def retrieveUntil (buf : Buffer) (stop : Nat) : Bool × Buffer :=
  if stop < buf.readerIndex then (false, buf)
  else if buf.writerIndex < stop then (false, buf)
  else (true, (buf.retrieve (sizeSub stop buf.readerIndex)).2)

def retrieveAsString (buf : Buffer) (len : Nat) : Bytes × Buffer :=
  if buf.readableBytes < len then ([], buf)
  else (buf.readable.take len, (buf.retrieve len).2)

/-- `std::string(peek(), static_cast<int>(readableBytes()))`; a negative count
makes the string constructor throw. -/
def toStringPiece (buf : Buffer) : Option Bytes :=
  if int32 buf.readableBytes < 0 then none
  else some (buf.readable.take (int32 buf.readableBytes).toNat)

def makeSpace (buf : Buffer) (len : Nat) : Buffer :=
  if sizeAdd buf.writableBytes buf.prependableBytes < sizeAdd len kCheapPrepend then
    { buf with buffer := buf.buffer.resize (sizeAdd buf.writerIndex len) }
  else if buf.readerIndex ≤ kCheapPrepend then buf
  else
    { buffer := buf.buffer.overwrite kCheapPrepend buf.readable
      readerIndex := kCheapPrepend
      writerIndex := sizeAdd kCheapPrepend buf.readableBytes }

/-- Always answers `true` in the source. -/
def ensureWritableBytes (buf : Buffer) (len : Nat) : Buffer :=
  if buf.writableBytes < len then buf.makeSpace len else buf

def hasWritten (buf : Buffer) (len : Nat) : Bool × Buffer :=
  if buf.writableBytes < len then (false, buf)
  else (true, { buf with writerIndex := sizeAdd buf.writerIndex len })

def unwrite (buf : Buffer) (len : Nat) : Bool × Buffer :=
  if buf.readableBytes < len then (false, buf)
  else (true, { buf with writerIndex := sizeSub buf.writerIndex len })

def append (buf : Buffer) (data : Bytes) : Buffer :=
  let spaced := buf.ensureWritableBytes data.length
  let copied := { spaced with buffer := spaced.buffer.overwrite spaced.writerIndex data }
  (copied.hasWritten data.length).2

def prepend (buf : Buffer) (data : Bytes) : Bool × Buffer :=
  if buf.prependableBytes < data.length then (false, buf)
  else
    let start := sizeSub buf.readerIndex data.length
    (true, { buf with buffer := buf.buffer.overwrite start data, readerIndex := start })

/-- The local buffer `other` ends up holding the old contents and is dropped. -/
def shrink (buf : Buffer) (reserve : Nat) : Buffer :=
  let other := (create kInitialSize).ensureWritableBytes (sizeAdd buf.readableBytes reserve)
  match buf.toStringPiece with
  | none => buf
  | some piece => other.append piece

/-- How many bytes one call can receive: what the `iovec` array covers, or the
stack buffer. -/
def readFdCapacity (buf : Buffer) : Platform → Nat
  | .posix =>
      if buf.writableBytes < extrabufSize then buf.writableBytes + extrabufSize
      else buf.writableBytes
  | .windows => extrabufSize

/-- `readFd` after the system call has delivered `result`. On `posix` the kernel
has filled the writable bytes first and `extrabuf` with the rest. -/
def readFd (buf : Buffer) (platform : Platform) (result : ReadResult) : Int × Buffer :=
  match result with
  | .endOfStream => (result.count, buf)
  | .failed _ => (result.count, buf)
  | .received data =>
      match platform with
      | .windows => (result.count, buf.append data)
      | .posix =>
          let writable := buf.writableBytes
          let filled :=
            { buf with buffer := buf.buffer.overwrite buf.writerIndex (data.take writable) }
          if data.length ≤ writable then
            (result.count, { filled with writerIndex := sizeAdd buf.writerIndex data.length })
          else
            let full := { filled with writerIndex := filled.buffer.length }
            (result.count, full.append (data.drop writable))

theorem readFd_count (buf : Buffer) (platform : Platform) (result : ReadResult) :
    (buf.readFd platform result).1 = result.count := by
  cases result with
  | received data =>
      cases platform with
      | windows => rfl
      | posix =>
          simp only [readFd]
          split <;> rfl
  | endOfStream => rfl
  | failed errno => rfl

/-- A fresh buffer of four bytes takes two of them and gives one back. -/
example : (((create 4).append [1, 2]).retrieve 1).2.readable = [2] := by decide

end Buffer

end MyBookSources.Net
