import MyBookSources.Foundation.Transducers
import MyBookSources.Zlib.StoredBlocks

/-! # A block with fixed codes

What zlib's `inflate` does with a block of fixed Huffman codes that is not the last of its
stream, as far as the block has literals below 144 and the longest match at the distance of one
byte, as in a run of a byte. Other codes are refused here.
-/

namespace MyBookSources.Zlib.FixedBlock

open Streaming ZlibUtil

inductive Expects
  | blockHeader
  | code
  | distance
  deriving DecidableEq

/-- The bits of what is expected that are there, and the last byte that was made. -/
structure Decoder where
  expects : Expects
  bits : List Bool
  last : Option Byte

def Decoder.start : Decoder := ⟨.blockHeader, [], none⟩

/-- Codes come with their highest bit first. -/
def value (bits : List Bool) : Nat := bits.foldl (fun high bit => 2 * high + bit.toNat) 0

def matchLength : Nat := 258

def takeBit (decoder : Decoder) (bit : Bool) : Option (Decoder × Bytes) :=
  let bits := decoder.bits ++ [bit]
  match decoder.expects with
  | .blockHeader =>
      if bits.length < 3 then some ({ decoder with bits := bits }, [])
      else if bits = [false, true, false] then some (⟨.code, [], none⟩, [])
      else none
  | .code =>
      -- The codes of seven bits are the end of the block and the shorter matches.
      if bits.length = 7 ∧ value bits < 24 then none
      else if bits.length < 8 then some ({ decoder with bits := bits }, [])
      else if 48 ≤ value bits ∧ value bits < 192 then
        let literal := UInt8.ofNat (value bits - 48)
        some (⟨.code, [], some literal⟩, [literal])
      else if value bits = 197 then some (⟨.distance, [], decoder.last⟩, [])
      else none
  | .distance =>
      if bits.length < 5 then some ({ decoder with bits := bits }, [])
      else
        match decoder.last with
        | some byte =>
            if value bits = 0 then
              some (⟨.code, [], some byte⟩, List.replicate matchLength byte)
            else none
        | none => none

def takeBits (decoder : Decoder) : List Bool → Option (Decoder × Bytes)
  | [] => some (decoder, [])
  | bit :: bits => do
      let (next, made) ← takeBit decoder bit
      let (last, later) ← takeBits next bits
      some (last, made ++ later)

/-- The lowest bit of a byte comes first. -/
def takeByte (decoder : Decoder) (byte : Byte) : Option (Decoder × Bytes) :=
  takeBits decoder ((List.range 8).map byte.toNat.testBit)

def implementation : Implementation where
  DeflateStream := Bytes
  deflateInit2 := some []
  deflate := StoredBlocks.deflate
  InflateStream := Buffered Decoder Byte
  inflateInit2 := some ⟨.start, []⟩
  inflate := buffered takeByte .ok .error

/-- What is to come of a stream that gets some more input. -/
def determined (stream : Buffered Decoder Byte) (input : Bytes) : Bytes :=
  stream.pending ++ outputs takeByte stream.inner input

theorem inflate_determines :
    Determines implementation.inflate .ok .streamEnd OUTPUT_BUF_SIZE determined :=
  buffered_determines takeByte (by decide) (by decide) (by decide) OUTPUT_BUF_SIZE

def outputLength (decoder : Decoder) : Bytes → Nat
  | [] => 0
  | byte :: rest =>
      match takeByte decoder byte with
      | none => 0
      | some (next, made) => made.length + outputLength next rest

theorem length_outputs (decoder : Decoder) (input : Bytes) :
    (outputs takeByte decoder input).length = outputLength decoder input := by
  induction input generalizing decoder with
  | nil => rfl
  | cons byte rest induction =>
      rw [outputs, outputLength]
      cases takeByte decoder byte with
      | none => rfl
      | some result => rw [List.length_append, induction]

end MyBookSources.Zlib.FixedBlock
