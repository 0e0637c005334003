import MyBookSources.Net.BufferRefinement

/-! # Typed fields in a buffer

Integers of four widths and raw bytes go into a buffer at either end and come out at the
front. An integer changes its bytes on the way in and on the way out, so that it stands in
the buffer with its most significant byte first.
-/

namespace MyBookSources.Net

/-! ## Byte order -/

/-- The bytes of an integer in the memory of the host, which is little-endian. -/
def memoryBytes (width : Nat) (x : BitVec (8 * width)) : Bytes :=
  (BigEndian.encode width x.toNat).reverse

def ofMemoryBytes (width : Nat) (bytes : Bytes) : BitVec (8 * width) :=
  BitVec.ofNat (8 * width) (BigEndian.decode bytes.reverse)

def swapBytes (width : Nat) (x : BitVec (8 * width)) : BitVec (8 * width) :=
  ofMemoryBytes width (memoryBytes width x).reverse

def hostToNetwork64 (host64 : BitVec 64) : BitVec 64 := swapBytes 8 host64
def hostToNetwork32 (host32 : BitVec 32) : BitVec 32 := swapBytes 4 host32
def hostToNetwork16 (host16 : BitVec 16) : BitVec 16 := swapBytes 2 host16
def networkToHost64 (net64 : BitVec 64) : BitVec 64 := swapBytes 8 net64
def networkToHost32 (net32 : BitVec 32) : BitVec 32 := swapBytes 4 net32
def networkToHost16 (net16 : BitVec 16) : BitVec 16 := swapBytes 2 net16

theorem two_pow_eight_mul (width : Nat) : 2 ^ (8 * width) = 256 ^ width := by
  rw [Nat.pow_mul]

theorem memoryBytes_ofMemoryBytes (bytes : Bytes) :
    memoryBytes bytes.length (ofMemoryBytes bytes.length bytes) = bytes := by
  have small := BigEndian.decode_lt bytes.reverse
  have whole := BigEndian.encode_decode bytes.reverse
  rw [List.length_reverse] at small whole
  rw [memoryBytes, ofMemoryBytes, BitVec.toNat_ofNat, two_pow_eight_mul,
    Nat.mod_eq_of_lt small, whole, List.reverse_reverse]

theorem memoryBytes_swapBytes (width : Nat) (x : BitVec (8 * width)) :
    memoryBytes width (swapBytes width x) = BigEndian.encode width x.toNat := by
  have stored := memoryBytes_ofMemoryBytes (BigEndian.encode width x.toNat)
  rw [BigEndian.length_encode] at stored
  rw [swapBytes, memoryBytes.eq_def width x, List.reverse_reverse]
  exact stored

theorem swapBytes_ofMemoryBytes (width : Nat) (x : BitVec (8 * width)) :
    swapBytes width (ofMemoryBytes width (BigEndian.encode width x.toNat)) = x := by
  have stored := memoryBytes_ofMemoryBytes (BigEndian.encode width x.toNat)
  have small : x.toNat < 256 ^ width := by
    rw [← two_pow_eight_mul]
    exact x.isLt
  rw [BigEndian.length_encode] at stored
  rw [swapBytes, stored, ofMemoryBytes, List.reverse_reverse, BigEndian.decode_encode small,
    BitVec.ofNat_toNat, BitVec.setWidth_eq]

namespace Buffer

/-! ## The typed members -/

def appendInt64 (buf : Buffer) (x : BitVec 64) : Buffer :=
  buf.append (memoryBytes 8 (hostToNetwork64 x))

def appendInt32 (buf : Buffer) (x : BitVec 32) : Buffer :=
  buf.append (memoryBytes 4 (hostToNetwork32 x))

def appendInt16 (buf : Buffer) (x : BitVec 16) : Buffer :=
  buf.append (memoryBytes 2 (hostToNetwork16 x))

def appendInt8 (buf : Buffer) (x : BitVec 8) : Buffer := buf.append (memoryBytes 1 x)

/-- The common body of the members that peek: `change` is the conversion to the order of the
host. -/
def peekInt (buf : Buffer) (width : Nat) (change : BitVec (8 * width) → BitVec (8 * width)) :
    BitVec (8 * width) :=
  if buf.readableBytes < width then BitVec.ofInt (8 * width) (-1)
  else change (ofMemoryBytes width ((buf.buffer.drop buf.readerIndex).take width))

def peekInt64 (buf : Buffer) : BitVec 64 := buf.peekInt 8 networkToHost64
def peekInt32 (buf : Buffer) : BitVec 32 := buf.peekInt 4 networkToHost32
def peekInt16 (buf : Buffer) : BitVec 16 := buf.peekInt 2 networkToHost16
def peekInt8 (buf : Buffer) : BitVec 8 := buf.peekInt 1 id

def retrieveInt64 (buf : Buffer) : Buffer := (buf.retrieve 8).2
def retrieveInt32 (buf : Buffer) : Buffer := (buf.retrieve 4).2
def retrieveInt16 (buf : Buffer) : Buffer := (buf.retrieve 2).2
def retrieveInt8 (buf : Buffer) : Buffer := (buf.retrieve 1).2

def readInt64 (buf : Buffer) : BitVec 64 × Buffer := (buf.peekInt64, buf.retrieveInt64)
def readInt32 (buf : Buffer) : BitVec 32 × Buffer := (buf.peekInt32, buf.retrieveInt32)
def readInt16 (buf : Buffer) : BitVec 16 × Buffer := (buf.peekInt16, buf.retrieveInt16)
def readInt8 (buf : Buffer) : BitVec 8 × Buffer := (buf.peekInt8, buf.retrieveInt8)

def prependInt64 (buf : Buffer) (x : BitVec 64) : Buffer :=
  (buf.prepend (memoryBytes 8 (hostToNetwork64 x))).2

def prependInt32 (buf : Buffer) (x : BitVec 32) : Buffer :=
  (buf.prepend (memoryBytes 4 (hostToNetwork32 x))).2

def prependInt16 (buf : Buffer) (x : BitVec 16) : Buffer :=
  (buf.prepend (memoryBytes 2 (hostToNetwork16 x))).2

def prependInt8 (buf : Buffer) (x : BitVec 8) : Buffer := (buf.prepend (memoryBytes 1 x)).2

/-! ## Sequences of calls -/

inductive IntField
  | int8 (x : BitVec 8)
  | int16 (x : BitVec 16)
  | int32 (x : BitVec 32)
  | int64 (x : BitVec 64)
  deriving DecidableEq

inductive IntKind
  | int8
  | int16
  | int32
  | int64
  deriving DecidableEq

inductive Item
  | int (field : IntField)
  | raw (data : Bytes)
  deriving DecidableEq

inductive Kind
  | int (kind : IntKind)
  | raw (len : Nat)
  deriving DecidableEq

def IntKind.width : IntKind → Nat
  | .int8 => 1
  | .int16 => 2
  | .int32 => 4
  | .int64 => 8

def IntField.kind : IntField → IntKind
  | .int8 _ => .int8
  | .int16 _ => .int16
  | .int32 _ => .int32
  | .int64 _ => .int64

def IntField.bytes : IntField → Bytes
  | .int8 x => BigEndian.encode 1 x.toNat
  | .int16 x => BigEndian.encode 2 x.toNat
  | .int32 x => BigEndian.encode 4 x.toNat
  | .int64 x => BigEndian.encode 8 x.toNat

def Item.kind : Item → Kind
  | .int field => .int field.kind
  | .raw data => .raw data.length

def Item.bytes : Item → Bytes
  | .int field => field.bytes
  | .raw data => data

def appendItem (buf : Buffer) : Item → Buffer
  | .int (.int8 x) => buf.appendInt8 x
  | .int (.int16 x) => buf.appendInt16 x
  | .int (.int32 x) => buf.appendInt32 x
  | .int (.int64 x) => buf.appendInt64 x
  | .raw data => buf.append data

def prependField (buf : Buffer) : IntField → Buffer
  | .int8 x => buf.prependInt8 x
  | .int16 x => buf.prependInt16 x
  | .int32 x => buf.prependInt32 x
  | .int64 x => buf.prependInt64 x

def readInt (buf : Buffer) : IntKind → IntField × Buffer
  | .int8 => (.int8 buf.readInt8.1, buf.readInt8.2)
  | .int16 => (.int16 buf.readInt16.1, buf.readInt16.2)
  | .int32 => (.int32 buf.readInt32.1, buf.readInt32.2)
  | .int64 => (.int64 buf.readInt64.1, buf.readInt64.2)

def readItem (buf : Buffer) : Kind → Item × Buffer
  | .int kind => (.int (buf.readInt kind).1, (buf.readInt kind).2)
  | .raw len => (.raw (buf.retrieveAsString len).1, (buf.retrieveAsString len).2)

inductive FieldCall
  | append (item : Item)
  | read (kind : Kind)

def performFields : Buffer → List FieldCall → List Item × Buffer
  | buf, [] => ([], buf)
  | buf, .append item :: calls => performFields (buf.appendItem item) calls
  | buf, .read kind :: calls =>
      let (item, next) := buf.readItem kind
      let (items, last) := performFields next calls
      (item :: items, last)

def prependAll (buf : Buffer) (fields : List IntField) : Buffer := fields.foldl prependField buf

/-- Each of the fields fits in front of the readable bytes. -/
def PrependsFit : Buffer → List IntField → Prop
  | _, [] => True
  | buf, field :: fields =>
      field.bytes.length ≤ buf.prependableBytes ∧ PrependsFit (buf.prependField field) fields

/-- No `size_t` sum wraps that an append forms from its request. -/
def AppendsFit : Buffer → List FieldCall → Prop
  | _, [] => True
  | buf, .append item :: calls =>
      buf.Room item.bytes.length ∧ AppendsFit (buf.appendItem item) calls
  | buf, .read kind :: calls => AppendsFit (buf.readItem kind).2 calls

def written : List FieldCall → List Item
  | [] => []
  | .append item :: calls => item :: written calls
  | .read _ :: calls => written calls

/-- With `queue` in the buffer each read is of the kind of the item in front, and all items
are read. -/
def ReadsInOrder : List Item → List FieldCall → Prop
  | queue, [] => queue = []
  | queue, .append item :: calls => ReadsInOrder (queue ++ [item]) calls
  | [], .read _ :: _ => False
  | item :: queue, .read kind :: calls => item.kind = kind ∧ ReadsInOrder queue calls

/-! ## One call -/

theorem appendItem_eq (buf : Buffer) (item : Item) :
    buf.appendItem item = buf.append item.bytes := by
  cases item with
  | raw data => rfl
  | int field =>
      cases field with
      | int8 x =>
          have one : memoryBytes 1 x = BigEndian.encode 1 x.toNat := rfl
          rw [appendItem, appendInt8, one]
          rfl
      | int16 x => exact congrArg buf.append (memoryBytes_swapBytes 2 x)
      | int32 x => exact congrArg buf.append (memoryBytes_swapBytes 4 x)
      | int64 x => exact congrArg buf.append (memoryBytes_swapBytes 8 x)

theorem prependField_eq (buf : Buffer) (field : IntField) :
    buf.prependField field = (buf.prepend field.bytes).2 := by
  have swapped : ∀ {left right : Bytes}, left = right →
      (buf.prepend left).2 = (buf.prepend right).2 := by
    rintro left _ rfl
    rfl
  cases field with
  | int8 x => exact swapped rfl
  | int16 x => exact swapped (memoryBytes_swapBytes 2 x)
  | int32 x => exact swapped (memoryBytes_swapBytes 4 x)
  | int64 x => exact swapped (memoryBytes_swapBytes 8 x)

@[simp] theorem IntField.length_bytes (field : IntField) :
    field.bytes.length = field.kind.width := by
  cases field <;> exact BigEndian.length_encode _ _

variable {buf : Buffer}

theorem peeked_eq (wellFormed : buf.WellFormed) {width : Nat}
    (enough : width ≤ buf.readable.length) :
    (buf.buffer.drop buf.readerIndex).take width = buf.readable.take width := by
  have length := wellFormed.length_readable
  have count := wellFormed.readableBytes_eq
  have ordered := wellFormed.reader_le_writer
  rw [readable, Bytes.slice, List.take_drop, List.take_drop, List.take_take,
    Nat.min_eq_left (by omega)]

theorem peekInt_eq (wellFormed : buf.WellFormed) {width : Nat} {front rest : Bytes}
    (change : BitVec (8 * width) → BitVec (8 * width)) (size : front.length = width)
    (readable : buf.readable = front ++ rest) :
    buf.peekInt width change = change (ofMemoryBytes width front) := by
  have length := wellFormed.length_readable
  have enough : width ≤ buf.readable.length := by
    rw [readable, List.length_append]
    omega
  rw [peekInt, if_neg (by omega), peeked_eq wellFormed enough, readable,
    List.take_left' size]

theorem ofMemoryBytes_one (x : BitVec 8) :
    ofMemoryBytes 1 (BigEndian.encode 1 x.toNat) = x := by
  have small := x.isLt
  have whole : BigEndian.decode (BigEndian.encode 1 x.toNat) = x.toNat :=
    BigEndian.decode_encode (by omega)
  have reversed : (BigEndian.encode 1 x.toNat).reverse = BigEndian.encode 1 x.toNat := rfl
  rw [ofMemoryBytes, reversed, whole, BitVec.ofNat_toNat, BitVec.setWidth_eq]

/-- A field in front is read as it was written. -/
theorem readInt_spec (wellFormed : buf.WellFormed) {field : IntField} {rest : Bytes}
    (readable : buf.readable = field.bytes ++ rest) :
    (buf.readInt field.kind).1 = field ∧ (buf.readInt field.kind).2.WellFormed ∧
      (buf.readInt field.kind).2.readable = rest := by
  have length := wellFormed.length_readable
  have size := field.length_bytes
  have fits : field.kind.width ≤ buf.readableBytes := by
    rw [← length, readable, List.length_append, size]
    omega
  have retrieved := retrieve_spec wellFormed fits
  have behind : buf.readable.drop field.kind.width = rest := by
    rw [readable, ← size, List.drop_left]
  rw [behind] at retrieved
  cases field with
  | int8 x =>
      have peeked : buf.peekInt8 = x :=
        (peekInt_eq wellFormed id size readable).trans (ofMemoryBytes_one x)
      exact ⟨congrArg IntField.int8 peeked, retrieved.2⟩
  | int16 x =>
      have peeked : buf.peekInt16 = x :=
        (peekInt_eq wellFormed (swapBytes 2) size readable).trans (swapBytes_ofMemoryBytes 2 x)
      exact ⟨congrArg IntField.int16 peeked, retrieved.2⟩
  | int32 x =>
      have peeked : buf.peekInt32 = x :=
        (peekInt_eq wellFormed (swapBytes 4) size readable).trans (swapBytes_ofMemoryBytes 4 x)
      exact ⟨congrArg IntField.int32 peeked, retrieved.2⟩
  | int64 x =>
      have peeked : buf.peekInt64 = x :=
        (peekInt_eq wellFormed (swapBytes 8) size readable).trans (swapBytes_ofMemoryBytes 8 x)
      exact ⟨congrArg IntField.int64 peeked, retrieved.2⟩

theorem readItem_spec (wellFormed : buf.WellFormed) {item : Item} {rest : Bytes}
    (readable : buf.readable = item.bytes ++ rest) :
    (buf.readItem item.kind).1 = item ∧ (buf.readItem item.kind).2.WellFormed ∧
      (buf.readItem item.kind).2.readable = rest := by
  cases item with
  | int field =>
      rcases readInt_spec wellFormed readable with ⟨value, wf, behind⟩
      exact ⟨congrArg Item.int value, wf, behind⟩
  | raw data =>
      have length := wellFormed.length_readable
      have readable : buf.readable = data ++ rest := readable
      have fits : data.length ≤ buf.readableBytes := by
        rw [← length, readable, List.length_append]
        omega
      have taken : buf.retrieveAsString data.length = (data, (buf.retrieve data.length).2) := by
        rw [retrieveAsString, if_neg (by omega), readable, List.take_left]
      have retrieved := retrieve_spec wellFormed fits
      rw [readable, List.drop_left] at retrieved
      have read : buf.readItem (Item.raw data).kind =
          (Item.raw data, (buf.retrieve data.length).2) := by
        rw [Item.kind, readItem, taken]
      rw [read]
      exact ⟨rfl, retrieved.2⟩

theorem readInt_refused {kind : IntKind} (short : buf.readableBytes < kind.width) :
    (buf.readInt kind).2 = buf := by
  cases kind <;> exact congrArg Prod.snd (retrieve_refused short)

/-! ## Many calls -/

/-- The buffer is a queue of items: the reads return what stood in it and then what was
appended, in that order. -/
theorem performFields_spec {calls : List FieldCall} {buf : Buffer} {queue : List Item}
    (wellFormed : buf.WellFormed) (readable : buf.readable = queue.flatMap Item.bytes)
    (ordered : ReadsInOrder queue calls) (fit : buf.AppendsFit calls) :
    (buf.performFields calls).1 = queue ++ written calls ∧
      (buf.performFields calls).2.WellFormed ∧ (buf.performFields calls).2.readable = [] := by
  induction calls generalizing buf queue with
  | nil =>
      cases ordered
      exact ⟨rfl, wellFormed, readable⟩
  | cons call calls induction =>
      cases call with
      | append item =>
          have appended := append_spec wellFormed fit.1
          rw [← appendItem_eq, readable] at appended
          have queued : (buf.appendItem item).readable =
              (queue ++ [item]).flatMap Item.bytes := by
            rw [appended.2, List.flatMap_append, List.flatMap_singleton]
          have rest := induction appended.1 queued ordered fit.2
          rw [List.append_assoc] at rest
          exact rest
      | read kind =>
          cases queue with
          | nil => cases ordered
          | cons item queue =>
              rcases ordered with ⟨rfl, ordered⟩
              rcases readItem_spec wellFormed readable with ⟨value, wf, behind⟩
              rcases induction wf behind ordered fit with ⟨values, last⟩
              exact ⟨congrArg₂ List.cons value values, last⟩

theorem prependAll_spec {fields : List IntField} {buf : Buffer} (wellFormed : buf.WellFormed)
    (fit : buf.PrependsFit fields) :
    (buf.prependAll fields).WellFormed ∧
      (buf.prependAll fields).readable =
        fields.reverse.flatMap IntField.bytes ++ buf.readable := by
  induction fields generalizing buf with
  | nil => exact ⟨wellFormed, rfl⟩
  | cons field fields induction =>
      rcases prepend_spec wellFormed fit.1 with ⟨_, wf, front⟩
      rw [← prependField_eq] at wf front
      rcases induction wf fit.2 with ⟨lastWf, readable⟩
      refine ⟨lastWf, ?_⟩
      change ((buf.prependField field).prependAll fields).readable = _
      rw [readable, front, List.reverse_cons, List.flatMap_append, List.flatMap_singleton,
        List.append_assoc]

/-! ## Reachable buffers -/

/-- The public operations in any order. The typed members are `append`, `prepend` and
`retrieve` with the bytes of their integer. -/
def publicMachine : Machine Pair Call where
  Step before call after := call.Given before ∧ after = (before.perform call).2

/-- What the fields appended behind `prepends` are read as, from a buffer without readable
bytes: the prepended ones from the last to the first, then the appended ones in order. -/
def RoundTrips (buf : Buffer) (prepends : List IntField) (calls : List FieldCall) : Prop :=
  let result := (buf.prependAll prepends).performFields calls
  result.1 = prepends.reverse.map Item.int ++ written calls ∧ result.2.readableBytes = 0

theorem roundTrips_of_fit {prepends : List IntField} {calls : List FieldCall}
    (wellFormed : buf.WellFormed) (empty : buf.readableBytes = 0)
    (prependsFit : buf.PrependsFit prepends)
    (ordered : ReadsInOrder (prepends.reverse.map Item.int) calls)
    (appendsFit : (buf.prependAll prepends).AppendsFit calls) : buf.RoundTrips prepends calls := by
  have nothing : buf.readable = [] := by
    rw [← List.length_eq_zero_iff, wellFormed.length_readable, empty]
  rcases prependAll_spec wellFormed prependsFit with ⟨wf, readable⟩
  have queued : (buf.prependAll prepends).readable =
      (prepends.reverse.map Item.int).flatMap Item.bytes := by
    rw [readable, nothing, List.append_nil, List.flatMap_map]
    rfl
  rcases performFields_spec wf queued ordered appendsFit with ⟨values, lastWf, last⟩
  refine ⟨values, ?_⟩
  rw [← lastWf.length_readable, last]
  rfl

/-- A buffer that is reached without a wrapped size sum, by public calls in any order, gives
back every sequence of fields as it was written, and a read of an integer that is not there
consumes nothing in any buffer. -/
theorem fields_roundTrip {initialSize rhsInitialSize : Nat}
    (selfFits : kCheapPrepend + initialSize < 2 ^ 64)
    (rhsFits : kCheapPrepend + rhsInitialSize < 2 ^ 64) {calls : List Call} {pair : Pair}
    (run : (publicMachine.restrict fun before call => call.Unwrapped before).Transitions
      (Pair.create initialSize rhsInitialSize) calls pair) :
    (∀ (prepends : List IntField) (fields : List FieldCall), pair.self.readableBytes = 0 →
      pair.self.PrependsFit prepends →
      ReadsInOrder (prepends.reverse.map Item.int) fields →
      (pair.self.prependAll prepends).AppendsFit fields →
      pair.self.RoundTrips prepends fields) ∧
    ∀ (buf : Buffer) (kind : IntKind), buf.readableBytes < kind.width →
      (buf.readInt kind).2 = buf := by
  have wellFormed : pair.WellFormed := by
    refine run.invariant ?_ (create_pair_wellFormed selfFits rhsFits)
    rintro before call after wellFormed ⟨⟨given, rfl⟩, unwrapped⟩
    exact perform_wellFormed wellFormed given unwrapped
  constructor
  · intro prepends fields empty prependsFit ordered appendsFit
    exact roundTrips_of_fit wellFormed.self empty prependsFit ordered appendsFit
  · intro buf kind short
    exact readInt_refused short

/-- A buffer of four bytes that has been used before takes a prepended byte and two fields
that make it grow. -/
theorem fields_roundTrip_small :
    (((Pair.create 4 0).perform (.append [1])).2.perform .retrieveAll).2.self.RoundTrips
      [.int8 7] [.append (.int (.int16 (-2))), .read (.int .int8), .append (.raw [1, 2, 3]),
        .read (.int .int16), .read (.raw 3)] := by
  have appended : (publicMachine.restrict fun before call => call.Unwrapped before).Step
      (Pair.create 4 0) (.append [1]) ((Pair.create 4 0).perform (.append [1])).2 :=
    ⟨⟨Nat.lt_of_lt_of_le (Nat.lt_succ_self 1) (by decide), rfl⟩, by decide, by decide⟩
  have emptied : (publicMachine.restrict fun before call => call.Unwrapped before).Step
      ((Pair.create 4 0).perform (.append [1])).2 .retrieveAll
      (((Pair.create 4 0).perform (.append [1])).2.perform .retrieveAll).2 :=
    ⟨⟨trivial, rfl⟩, trivial⟩
  have run := Machine.Transitions.snoc (.snoc (.nil _) appended) emptied
  refine (fields_roundTrip (by decide) (by decide) run).1 _ _ (by decide) ?_ ?_ ?_
  · exact ⟨by decide, trivial⟩
  · exact ⟨rfl, rfl, rfl, rfl⟩
  · exact ⟨by decide, by decide, trivial⟩

/-- The constructor of `2 ^ 64 - 8` bytes makes an empty vector and reserves its first eight
bytes: the byte that is appended is not read. -/
theorem wrapped_buffer_loses_field :
    ¬ ∀ initialSize < 2 ^ 64, ∀ rhsInitialSize < 2 ^ 64, ∀ calls pair,
      publicMachine.Transitions (Pair.create initialSize rhsInitialSize) calls pair →
        ∀ (prepends : List IntField) (fields : List FieldCall), pair.self.readableBytes = 0 →
          pair.self.PrependsFit prepends →
          ReadsInOrder (prepends.reverse.map Item.int) fields →
          pair.self.RoundTrips prepends fields := by
  intro law
  have returned := law (2 ^ 64 - 8) (by decide) 0 (by decide) [] _ (.nil _) []
    [.append (.int (.int8 5)), .read (.int .int8)] (by decide) trivial ⟨rfl, rfl⟩
  exact absurd returned.1 (by decide)

end Buffer

end MyBookSources.Net
