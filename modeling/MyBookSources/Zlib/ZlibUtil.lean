import MyBookSources.Foundation.Bytes
import MyBookSources.Foundation.Streaming

/-! # ZlibUtil

`ZlibUtil::deflate` and `ZlibUtil::inflate` over zlib's streaming calls. zlib itself is a
parameter; `Documented` is what its documentation says of raw deflate streams that are
made with `Z_SYNC_FLUSH`.
-/

namespace MyBookSources.Zlib

open Streaming

/-- `Z_OK`, `Z_STREAM_END` and the error codes. -/
inductive Status
  | ok
  | streamEnd
  | error
  deriving DecidableEq

/-- The streams of zlib and their calls with `Z_SYNC_FLUSH`. A stream that cannot be
initialised is `none`. -/
structure Implementation where
  DeflateStream : Type
  deflateInit2 : Option DeflateStream
  deflate : Coder DeflateStream Status Byte Byte
  InflateStream : Type
  inflateInit2 : Option InflateStream
  inflate : Coder InflateStream Status Byte Byte

namespace ZlibUtil

def OUTPUT_BUF_SIZE : Nat := 8192

inductive LoopExit
  | streamEnd
  | processed
  | failed
  deriving DecidableEq

/-- The `do` loop that both functions have, with the call that they make in it. -/
def drain {Stream : Type} (coder : Coder Stream Status Byte Byte) :
    Nat → Stream → Bytes → Bytes → Option (LoopExit × Bytes)
  | 0, _, _, _ => none
  | fuel + 1, stream, input, strDest =>
      let call := coder stream input OUTPUT_BUF_SIZE
      let avail_in := input.length - call.taken
      let avail_out := OUTPUT_BUF_SIZE - call.output.length
      if call.status = .streamEnd then some (.streamEnd, strDest ++ call.output)
      else if call.status = .ok ∧ avail_out = 0 ∧ avail_in ≠ 0 then
        drain coder fuel call.state (input.drop call.taken) (strDest ++ call.output)
      else if call.status = .ok ∧ avail_in = 0 then
        -- The flush may be incomplete: `avail_out` is not looked at here.
        some (.processed, strDest ++ call.output)
      else some (.failed, strDest)

/-- `avail_in` is a 32-bit field. -/
def availableInput (strSrc : Bytes) : Bytes := strSrc.take (strSrc.length % 2 ^ 32)

/-- `strDest.substr(0, strDest.length() - 4)`: below four bytes the difference wraps and
all of the string is kept. -/
def withoutMarker (strDest : Bytes) : Bytes :=
  if strDest.length < 4 then strDest else strDest.take (strDest.length - 4)

def deflate (zlib : Implementation) (fuel : Nat) (strSrc strDest : Bytes) : Option (Bool × Bytes) :=
  match zlib.deflateInit2 with
  | none => some (false, strDest)
  | some stream =>
      (drain zlib.deflate fuel stream (availableInput strSrc) strDest).map fun
        | (.streamEnd, dest) => (true, dest)
        | (.processed, dest) => (true, withoutMarker dest)
        | (.failed, dest) => (false, dest)

def inflate (zlib : Implementation) (fuel : Nat) (strSrc strDest : Bytes) : Option (Bool × Bytes) :=
  match zlib.inflateInit2 with
  | none => some (false, strDest)
  | some stream =>
      (drain zlib.inflate fuel stream (availableInput strSrc) strDest).map fun
        | (.streamEnd, dest) => (true, dest)
        | (.processed, dest) => (true, dest)
        | (.failed, dest) => (false, dest)

theorem drain_add {Stream : Type} {coder : Coder Stream Status Byte Byte} {fuel : Nat}
    {stream : Stream} {input strDest : Bytes} {result : LoopExit × Bytes}
    (drained : drain coder fuel stream input strDest = some result) (more : Nat) :
    drain coder (fuel + more) stream input strDest = some result := by
  induction fuel generalizing stream input strDest with
  | zero => cases drained
  | succ fuel induction =>
      rw [Nat.succ_add]
      rw [drain] at drained ⊢
      split at drained
      · next ended => rw [if_pos ended, drained]
      · next running =>
          rw [if_neg running]
          split at drained
          · next full =>
              rw [if_pos full]
              exact induction drained
          · next last => rw [if_neg last, drained]

/-- What the loop comes to does not depend on the fuel. -/
theorem drain_unique {Stream : Type} {coder : Coder Stream Status Byte Byte}
    {fuelLeft fuelRight : Nat} {stream : Stream} {input strDest : Bytes}
    {left right : LoopExit × Bytes}
    (drainedLeft : drain coder fuelLeft stream input strDest = some left)
    (drainedRight : drain coder fuelRight stream input strDest = some right) : left = right := by
  have longLeft := drain_add drainedLeft fuelRight
  have longRight := drain_add drainedRight fuelLeft
  rw [Nat.add_comm, longRight] at longLeft
  exact (Option.some.inj longLeft).symm

section

variable {Stream : Type} {coder : Coder Stream Status Byte Byte} {stream : Stream} {rest : Bytes}
  (status : (coder stream rest OUTPUT_BUF_SIZE).status = .ok)

include status

theorem drain_processed (used : rest.length ≤ (coder stream rest OUTPUT_BUF_SIZE).taken)
    (fuel : Nat) (strDest : Bytes) :
    drain coder (fuel + 1) stream rest strDest =
      some (.processed, strDest ++ (coder stream rest OUTPUT_BUF_SIZE).output) := by
  have none : rest.length - (coder stream rest OUTPUT_BUF_SIZE).taken = 0 := by omega
  simp [drain, status, none]

theorem drain_continued (part : (coder stream rest OUTPUT_BUF_SIZE).taken < rest.length)
    (full : (coder stream rest OUTPUT_BUF_SIZE).output.length = OUTPUT_BUF_SIZE)
    (fuel : Nat) (strDest : Bytes) :
    drain coder (fuel + 1) stream rest strDest =
      drain coder fuel (coder stream rest OUTPUT_BUF_SIZE).state
        (rest.drop (coder stream rest OUTPUT_BUF_SIZE).taken)
        (strDest ++ (coder stream rest OUTPUT_BUF_SIZE).output) := by
  have some : rest.length - (coder stream rest OUTPUT_BUF_SIZE).taken ≠ 0 := by omega
  simp [drain, status, some, full]

end

/-- On a coder that streams, the loop hands out as many windows as calls take the input. -/
theorem drain_of_usedUpBy {Stream : Type} {coder : Coder Stream Status Byte Byte} {first : Stream}
    {input whole : Bytes} (streams : Streams coder .ok OUTPUT_BUF_SIZE first input whole)
    {stream : Stream} {rest handed : Bytes} {calls : Nat}
    (reached : Reached coder OUTPUT_BUF_SIZE first input stream rest handed) (left : rest ≠ [])
    (used : UsedUpBy coder OUTPUT_BUF_SIZE stream rest calls) (strDest : Bytes) :
    ∃ fuel, drain coder fuel stream rest strDest = some (.processed,
      strDest ++ (whole.drop handed.length).take (OUTPUT_BUF_SIZE * calls)) := by
  induction used generalizing handed strDest with
  | last all =>
      refine ⟨1, ?_⟩
      rw [drain_processed (streams.status reached left) all, streams.output_eq reached left,
        Nat.mul_one]
  | @more stream rest calls part _ induction =>
      have full : (coder stream rest OUTPUT_BUF_SIZE).output.length = OUTPUT_BUF_SIZE := by
        rcases streams.exhausts reached left with used | full
        · omega
        · exact full
      rcases induction (.call reached left) (drop_ne_nil part)
        (strDest ++ (coder stream rest OUTPUT_BUF_SIZE).output) with ⟨fuel, finished⟩
      refine ⟨fuel + 1, ?_⟩
      rw [drain_continued (streams.status reached left) part full, finished,
        List.length_append, full, ← List.drop_drop, Nat.mul_add_one, Nat.add_comm _ OUTPUT_BUF_SIZE,
        List.take_add, ← streams.output_eq reached left, List.append_assoc]

/-! ## What is documented of zlib -/

def flushMarker : Bytes := [0x00, 0x00, 0xff, 0xff]

/-- `compressed` is the complete output of a flush, and `plain` what the bytes of a raw
deflate stream received so far determine. -/
structure Documented (zlib : Implementation) (compressed plain : Bytes → Bytes) : Prop where
  deflateInit2 : zlib.deflateInit2.isSome = true
  inflateInit2 : zlib.inflateInit2.isSome = true
  deflate_streams : ∀ stream ∈ zlib.deflateInit2, ∀ source, source ≠ [] →
    Streams zlib.deflate .ok OUTPUT_BUF_SIZE stream source (compressed source)
  inflate_streams : ∀ stream ∈ zlib.inflateInit2, ∀ source received, source ≠ [] →
    received ≠ [] → received <+: compressed source →
    Streams zlib.inflate .ok OUTPUT_BUF_SIZE stream received (plain received)
  /-- Without input `inflate` can do nothing, which is `Z_BUF_ERROR`. -/
  inflate_nothing : ∀ stream ∈ zlib.inflateInit2,
    (zlib.inflate stream [] OUTPUT_BUF_SIZE).status = .error
  flush_marker : ∀ source, source ≠ [] → ∃ blocks, compressed source = blocks ++ flushMarker ∧
    plain blocks = source
  plain_isPrefix : ∀ source front received, source ≠ [] → received <+: compressed source →
    front <+: received → plain front <+: plain received
  plain_nil : plain [] = []

end ZlibUtil

end MyBookSources.Zlib
