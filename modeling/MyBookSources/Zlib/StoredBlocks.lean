import MyBookSources.Zlib.ZlibUtil

/-! # Stored blocks

What zlib does with input that does not compress: `deflate` takes it all, stores it in
blocks of at most 16383 bytes and hands out what fits; `inflate` copies the bytes of the
blocks. This implementation has the documented behaviour.
-/

namespace MyBookSources.Zlib.StoredBlocks

open Streaming ZlibUtil

def blockSize : Nat := 16383

def littleEndian (value : Nat) : Bytes := [UInt8.ofNat value, UInt8.ofNat (value / 256)]

/-- A block that is not the last one: type, length, its complement and the data. -/
def block (data : Bytes) : Bytes :=
  0 :: littleEndian data.length ++ littleEndian (65535 - data.length) ++ data

def blocksLoop : Nat → Bytes → Bytes
  | 0, _ => []
  | fuel + 1, source =>
      if source = [] then []
      else block (source.take blockSize) ++ blocksLoop fuel (source.drop blockSize)

/-- The blocks of `source` and the first byte of the empty block that a flush adds. -/
def blocks (source : Bytes) : Bytes := blocksLoop source.length source ++ [0]

def compressed (source : Bytes) : Bytes := blocks source ++ flushMarker

def deflate (pending input : Bytes) (room : Nat) : Call Bytes Status Byte :=
  let produced := if input = [] then pending else pending ++ compressed input
  { status := .ok, taken := input.length, output := produced.take room,
    state := produced.drop room }

/-- The bytes of a block's header that are there, and the data that is still to come. -/
structure Inflating where
  header : Bytes
  remaining : Nat

def Inflating.start : Inflating := ⟨[], 0⟩

def Inflating.collect (inflating : Inflating) (byte : Byte) : Inflating :=
  let header := inflating.header ++ [byte]
  if header.length < 5 then ⟨header, 0⟩
  else ⟨[], (header.getD 1 0).toNat + 256 * (header.getD 2 0).toNat⟩

def Inflating.copy (inflating : Inflating) : Inflating :=
  { inflating with remaining := inflating.remaining - 1 }

def plainFrom (inflating : Inflating) : Bytes → Bytes
  | [] => []
  | byte :: rest =>
      if inflating.remaining = 0 then plainFrom (inflating.collect byte) rest
      else byte :: plainFrom inflating.copy rest

def plain (received : Bytes) : Bytes := plainFrom .start received

def inflateLoop (inflating : Inflating) : Bytes → Nat → Inflating × Nat × Bytes
  | [], _ => (inflating, 0, [])
  | byte :: rest, room =>
      if inflating.remaining = 0 then
        let later := inflateLoop (inflating.collect byte) rest room
        (later.1, later.2.1 + 1, later.2.2)
      else if room = 0 then (inflating, 0, [])
      else
        let later := inflateLoop inflating.copy rest (room - 1)
        (later.1, later.2.1 + 1, byte :: later.2.2)

def inflate (inflating : Inflating) (input : Bytes) (room : Nat) : Call Inflating Status Byte :=
  let result := inflateLoop inflating input room
  { status := if input = [] then .error else .ok, taken := result.2.1, output := result.2.2,
    state := result.1 }

def implementation : Implementation where
  DeflateStream := Bytes
  deflateInit2 := some []
  deflate := deflate
  InflateStream := Inflating
  inflateInit2 := some .start
  inflate := inflate

/-! ## Inflating -/

theorem inflateLoop_spec (inflating : Inflating) (input : Bytes) (room : Nat) :
    (inflateLoop inflating input room).2.1 ≤ input.length ∧
      (inflateLoop inflating input room).2.2.length ≤ room ∧
      ((inflateLoop inflating input room).2.1 = input.length ∨
        (inflateLoop inflating input room).2.2.length = room) ∧
      plainFrom inflating input =
        (inflateLoop inflating input room).2.2 ++
          plainFrom (inflateLoop inflating input room).1
            (input.drop (inflateLoop inflating input room).2.1) := by
  induction input generalizing inflating room with
  | nil => simp [inflateLoop, plainFrom]
  | cons byte rest induction =>
      rw [inflateLoop, plainFrom]
      split
      · rcases induction (inflating.collect byte) room with ⟨taken, output, used, same⟩
        refine ⟨?_, output, ?_, ?_⟩
        · simpa using taken
        · simpa using used
        · simpa using same
      · split
        · next busy full => simp [full, plainFrom, busy]
        · rcases induction inflating.copy (room - 1) with ⟨taken, output, used, same⟩
          refine ⟨?_, ?_, ?_, ?_⟩
          · simpa using taken
          · simp only [List.length_cons]
            omega
          · simp only [List.length_cons]
            omega
          · simpa using same

theorem inflate_streams (received : Bytes) :
    Streams inflate .ok OUTPUT_BUF_SIZE .start received (plain received) := by
  have kept : ∀ {inflating rest handed},
      Reached inflate OUTPUT_BUF_SIZE .start received inflating rest handed →
      handed ++ plainFrom inflating rest = plain received := by
    intro inflating rest handed reached
    induction reached with
    | start => rfl
    | @call inflating rest handed earlier left induction =>
        rw [← induction, List.append_assoc]
        rcases inflateLoop_spec inflating rest OUTPUT_BUF_SIZE with ⟨_, _, _, same⟩
        rw [same]
        rfl
  constructor
  · intro inflating rest handed _ left
    simp [inflate, left]
  · intro inflating rest handed _ _
    exact (inflateLoop_spec inflating rest OUTPUT_BUF_SIZE).1
  · intro inflating rest handed _ _
    exact (inflateLoop_spec inflating rest OUTPUT_BUF_SIZE).2.1
  · intro inflating rest handed reached left
    rw [← kept (.call reached left)]
    exact List.prefix_append _ _
  · intro inflating rest handed _ _
    exact (inflateLoop_spec inflating rest OUTPUT_BUF_SIZE).2.2.1
  · intro inflating rest handed reached left all _
    have next := kept (.call reached left)
    rw [all, List.drop_length] at next
    simpa [plainFrom] using next

theorem plainFrom_isPrefix {front received : Bytes} (isPrefix : front <+: received)
    (inflating : Inflating) : plainFrom inflating front <+: plainFrom inflating received := by
  induction front generalizing received inflating with
  | nil => exact List.nil_prefix
  | cons byte front induction =>
      rcases isPrefix with ⟨later, rfl⟩
      rw [List.cons_append, plainFrom, plainFrom]
      split
      · exact induction (List.prefix_append _ _) _
      · exact List.cons_prefix_cons.mpr ⟨rfl, induction (List.prefix_append _ _) _⟩

theorem length_plainFrom_le (inflating : Inflating) (received : Bytes) :
    (plainFrom inflating received).length ≤ received.length := by
  induction received generalizing inflating with
  | nil => simp [plainFrom]
  | cons byte rest induction =>
      rw [plainFrom]
      split
      · exact (induction _).trans (by simp)
      · simpa using induction inflating.copy

theorem plainFrom_header (type low high lowComplement highComplement : Byte) (later : Bytes) :
    plainFrom .start (type :: low :: high :: lowComplement :: highComplement :: later) =
      plainFrom ⟨[], low.toNat + 256 * high.toNat⟩ later := by
  simp [plainFrom, Inflating.start, Inflating.collect]

theorem length_plain_le (received : Bytes) : (plain received).length ≤ received.length - 5 := by
  rcases received with _ | ⟨type, _ | ⟨low, _ | ⟨high, _ | ⟨lowComplement, _ | ⟨last, rest⟩⟩⟩⟩⟩
  case cons.cons.cons.cons.cons =>
    rw [plain, plainFrom_header]
    exact length_plainFrom_le _ rest
  all_goals exact Nat.zero_le _

/-! ## Blocks -/

theorem plainFrom_data (header data later : Bytes) :
    plainFrom ⟨header, data.length⟩ (data ++ later) = data ++ plainFrom ⟨header, 0⟩ later := by
  induction data with
  | nil => rfl
  | cons byte data induction =>
      rw [List.cons_append, plainFrom, if_neg (by simp)]
      exact congrArg (byte :: ·) induction

theorem plainFrom_block {data : Bytes} (short : data.length < 65536) (later : Bytes) :
    plainFrom .start (block data ++ later) = data ++ plainFrom .start later := by
  have value : (UInt8.ofNat data.length).toNat + 256 * (UInt8.ofNat (data.length / 256)).toNat =
      data.length := by
    simp only [UInt8.toNat_ofNat']
    omega
  simp only [block, littleEndian, List.cons_append, List.nil_append, plainFrom_header, value]
  exact plainFrom_data [] data later

theorem plainFrom_blocksLoop (fuel : Nat) (source later : Bytes)
    (enough : source.length ≤ fuel) :
    plainFrom .start (blocksLoop fuel source ++ later) = source ++ plainFrom .start later := by
  induction fuel generalizing source with
  | zero =>
      have empty : source = [] := List.length_eq_zero_iff.mp (by omega)
      rw [empty]
      rfl
  | succ fuel induction =>
      rw [blocksLoop]
      split
      · next empty => rw [empty]; rfl
      · next some =>
          have positive := List.length_pos_iff.mpr some
          have data : (source.take blockSize).length < 65536 :=
            (List.length_take_le _ _).trans_lt (by decide)
          have fewer : (source.drop blockSize).length ≤ fuel := by
            rw [List.length_drop]
            unfold blockSize
            omega
          rw [List.append_assoc, plainFrom_block data, induction _ fewer, ← List.append_assoc,
            List.take_append_drop]

theorem plain_blocks (source : Bytes) : plain (blocks source) = source := by
  have marker : plainFrom .start [0] = [] := rfl
  rw [plain, blocks, plainFrom_blocksLoop _ _ _ (Nat.le_refl _), marker, List.append_nil]

/-! ## Deflating -/

theorem deflate_streams {source : Bytes} (nonempty : source ≠ []) :
    Streams deflate .ok OUTPUT_BUF_SIZE [] source (compressed source) := by
  have first : ∀ {pending rest handed},
      Reached deflate OUTPUT_BUF_SIZE [] source pending rest handed → rest ≠ [] →
      pending = [] ∧ rest = source ∧ handed = [] := by
    intro pending rest handed reached left
    cases reached with
    | start => exact ⟨rfl, rfl, rfl⟩
    | call earlier _ => exact absurd (List.drop_length) left
  have output : (deflate [] source OUTPUT_BUF_SIZE).output =
      (compressed source).take OUTPUT_BUF_SIZE := by
    simp [deflate, nonempty]
  constructor
  · intro pending rest handed _ _
    rfl
  · intro pending rest handed _ _
    exact Nat.le_refl _
  · intro pending rest handed _ _
    exact List.length_take_le _ _
  · intro pending rest handed reached left
    rcases first reached left with ⟨rfl, rfl, rfl⟩
    rw [List.nil_append, output]
    exact List.take_prefix _ _
  · intro pending rest handed _ _
    exact .inl rfl
  · intro pending rest handed reached left _ room
    rcases first reached left with ⟨rfl, rfl, rfl⟩
    rw [output] at room ⊢
    rw [List.length_take] at room
    rw [List.nil_append, List.take_of_length_le (by omega)]

theorem documented : Documented implementation compressed plain where
  deflateInit2 := rfl
  inflateInit2 := rfl
  deflate_streams := by
    intro stream init source nonempty
    cases init
    exact deflate_streams nonempty
  inflate_streams := by
    intro stream init source received _ _ _
    cases init
    exact inflate_streams received
  inflate_nothing := by
    intro stream _
    rfl
  flush_marker := by
    intro source _
    exact ⟨blocks source, rfl, plain_blocks source⟩
  plain_isPrefix := by
    intro source front received _ _ isPrefix
    exact plainFrom_isPrefix isPrefix .start
  plain_nil := rfl

end MyBookSources.Zlib.StoredBlocks
