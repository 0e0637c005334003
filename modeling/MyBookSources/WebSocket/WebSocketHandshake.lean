import MyBookSources.Foundation.Bytes

/-! # The accept key

`js::WebSocketHandshake`: SHA-1 of the client's key and the protocol's GUID, in base64.
-/

namespace MyBookSources.WebSocketHandshake

abbrev Words := List UInt32

def rol (value bits : UInt32) : UInt32 := value <<< bits ||| value >>> (32 - bits)

def word (words : Words) (index : Nat) : UInt32 := words.getD index 0

def blk (b : Words) (i : Nat) : UInt32 :=
  rol (word b ((i + 13) % 16) ^^^ word b ((i + 8) % 16) ^^^ word b ((i + 2) % 16) ^^^ word b i) 1

/-- One assignment `a[target] += mixed` with the rotation of `a[rotated]` after it. -/
def update (a : Words) (target rotated : Nat) (mixed : UInt32) : Words :=
  let added := a.set target (word a target + mixed)
  added.set rotated (rol (word added rotated) 30)

/-- `Sha1Loop<state>::f<i>` for the states 1 to 5. -/
def f (state i : Nat) (ab : Words × Words) : Words × Words :=
  let a := ab.1
  let b := ab.2
  let second := word a ((2 + i) % 5)
  let third := word a ((3 + i) % 5)
  match state with
  | 1 =>
      let first := word a ((1 + i) % 5)
      (update a (i % 5) ((3 + i) % 5)
        (((third &&& (second ^^^ first)) ^^^ first) + word b i + 0x5a827999 +
          rol (word a ((4 + i) % 5)) 5), b)
  | 2 =>
      let scheduled := b.set i (blk b i)
      (update a ((1 + i) % 5) ((4 + i) % 5)
        (((word a ((4 + i) % 5) &&& (third ^^^ second)) ^^^ second) + word scheduled i +
          0x5a827999 + rol (word a ((5 + i) % 5)) 5), scheduled)
  | 3 =>
      let slot := (i + 4) % 16
      let scheduled := b.set slot (blk b slot)
      (update a (i % 5) ((3 + i) % 5)
        ((third ^^^ second ^^^ word a ((1 + i) % 5)) + word scheduled slot + 0x6ed9eba1 +
          rol (word a ((4 + i) % 5)) 5), scheduled)
  | 4 =>
      let slot := (i + 8) % 16
      let scheduled := b.set slot (blk b slot)
      (update a (i % 5) ((3 + i) % 5)
        ((((third ||| second) &&& word a ((1 + i) % 5)) ||| (third &&& second)) +
          word scheduled slot + 0x8f1bbcdc + rol (word a ((4 + i) % 5)) 5), scheduled)
  | _ =>
      let slot := (i + 12) % 16
      let scheduled := b.set slot (blk b slot)
      (update a (i % 5) ((3 + i) % 5)
        ((third ^^^ second ^^^ word a ((1 + i) % 5)) + word scheduled slot + 0xca62c1d6 +
          rol (word a ((4 + i) % 5)) 5), scheduled)

/-- `static_for<count, Sha1Loop<state>>`. -/
def staticFor (count state : Nat) (ab : Words × Words) : Words × Words :=
  (List.range count).foldl (fun words i => f state i words) ab

def sha1 (hash b : Words) : Words :=
  let first := staticFor 16 1 (hash.reverse, b)
  let rounds := staticFor 20 5 (staticFor 20 4 (staticFor 20 3 (staticFor 4 2 first)))
  (List.range 5).map fun i => word hash i + word rounds.1 (4 - i)

def b64 : Bytes := ascii "ABCDEFGHIJKLMNOPQRSTUVWXYZabcdefghijklmnopqrstuvwxyz0123456789+/"

def digit (value : UInt8) : Byte := b64.getD value.toNat 0

/-- Three bytes give four digits; the last two of the twenty give three and a pad. -/
def base64 : Bytes → Bytes
  | first :: second :: third :: rest =>
      digit ((first >>> 2) &&& 63) ::
        digit (((first &&& 3) <<< 4) ||| ((second &&& 240) >>> 4)) ::
        digit (((second &&& 15) <<< 2) ||| ((third &&& 192) >>> 6)) ::
        digit (third &&& 63) :: base64 rest
  | [first, second] =>
      [digit ((first >>> 2) &&& 63), digit (((first &&& 3) <<< 4) ||| ((second &&& 240) >>> 4)),
        digit ((second &&& 15) <<< 2), 61]
  | _ => []

/-- `input` is the 24 bytes of the key that are read. -/
def generate (input : Bytes) : Bytes :=
  let keyWords := (List.range 6).map fun i =>
    UInt32.ofNat (BigEndian.decode ((input.drop (4 * i)).take 4))
  let guidWords : Words :=
    [0x32353845, 0x41464135, 0x2d453931, 0x342d3437, 0x44412d39, 0x3543412d, 0x43354142,
      0x30444338, 0x35423131, 0x80000000]
  let initial : Words := [0x67452301, 0xefcdab89, 0x98badcfe, 0x10325476, 0xc3d2e1f0]
  let lastBlock : Words := List.replicate 15 0 ++ [480]
  let hash := sha1 (sha1 initial (keyWords ++ guidWords)) lastBlock
  base64 (hash.flatMap fun value => BigEndian.encode 4 value.toNat)

end MyBookSources.WebSocketHandshake
