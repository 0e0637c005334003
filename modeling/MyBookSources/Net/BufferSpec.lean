import MyBookSources.Net.Buffer

/-! # What each buffer operation does

The documented index order `0 <= readerIndex <= writerIndex <= size` as an
invariant, and one specification for each operation: it keeps the invariant and
acts on the readable bytes as a list operation does. Growing is specified under
`Room`, which says that no `size_t` sum of the request wraps.
-/

namespace MyBookSources.Net.Buffer

structure WellFormed (buf : Buffer) : Prop where
  reader_le_writer : buf.readerIndex ≤ buf.writerIndex
  writer_le_size : buf.writerIndex ≤ buf.buffer.length
  prepend_le_size : kCheapPrepend ≤ buf.buffer.length
  size_lt : buf.buffer.length < 2 ^ 64

/-- The two sums formed from a requested length stay below `2 ^ 64`. -/
def Room (buf : Buffer) (len : Nat) : Prop :=
  buf.writerIndex + len < 2 ^ 64 ∧ len + kCheapPrepend < 2 ^ 64

instance (buf : Buffer) (len : Nat) : Decidable (buf.Room len) :=
  inferInstanceAs (Decidable (_ ∧ _))

namespace WellFormed

variable {buf : Buffer}

theorem readableBytes_eq (wellFormed : buf.WellFormed) :
    buf.readableBytes = buf.writerIndex - buf.readerIndex := by
  have bounds := wellFormed.writer_le_size
  have small := wellFormed.size_lt
  exact sizeSub_of_le wellFormed.reader_le_writer (by omega)

theorem writableBytes_eq (wellFormed : buf.WellFormed) :
    buf.writableBytes = buf.buffer.length - buf.writerIndex :=
  sizeSub_of_le wellFormed.writer_le_size wellFormed.size_lt

theorem length_readable (wellFormed : buf.WellFormed) :
    buf.readable.length = buf.readableBytes := by
  rw [readable, Bytes.length_slice wellFormed.writer_le_size, wellFormed.readableBytes_eq]

end WellFormed

theorem readable_of_indices_eq {buf : Buffer}
    (empty : buf.readerIndex = buf.writerIndex) : buf.readable = [] := by
  apply List.eq_nil_of_length_eq_zero
  simp only [readable, Bytes.slice, List.length_drop, List.length_take]
  omega

theorem create_wellFormed {initialSize : Nat}
    (fits : kCheapPrepend + initialSize < 2 ^ 64) : (create initialSize).WellFormed := by
  have size : (create initialSize).buffer.length = kCheapPrepend + initialSize := by
    simp [create, sizeAdd_of_lt fits]
  constructor
  · exact Nat.le_refl _
  · change kCheapPrepend ≤ (create initialSize).buffer.length
    omega
  · omega
  · omega

/-- The constructor establishes the invariant exactly when its size does not
wrap; a wrapped vector is too short for the reserved front. -/
theorem create_wellFormed_iff {initialSize : Nat} (sizeT : initialSize < 2 ^ 64) :
    (create initialSize).WellFormed ↔ kCheapPrepend + initialSize < 2 ^ 64 := by
  refine ⟨fun wellFormed => ?_, create_wellFormed⟩
  have room := wellFormed.prepend_le_size
  simp only [create, List.length_replicate, sizeAdd, kCheapPrepend] at room ⊢
  omega

@[simp] theorem readable_create (initialSize : Nat) : (create initialSize).readable = [] :=
  readable_of_indices_eq rfl

/-! ## Taking bytes out -/

theorem retrieveAll_wellFormed {buf : Buffer} (wellFormed : buf.WellFormed) :
    buf.retrieveAll.WellFormed :=
  ⟨Nat.le_refl _, wellFormed.prepend_le_size, wellFormed.prepend_le_size, wellFormed.size_lt⟩

@[simp] theorem readable_retrieveAll (buf : Buffer) : buf.retrieveAll.readable = [] :=
  readable_of_indices_eq rfl

theorem retrieve_refused {buf : Buffer} {len : Nat} (long : buf.readableBytes < len) :
    buf.retrieve len = (false, buf) := by
  simp [retrieve, long]

theorem retrieveAsString_refused {buf : Buffer} {len : Nat} (long : buf.readableBytes < len) :
    buf.retrieveAsString len = ([], buf) := by
  simp [retrieveAsString, long]

theorem unwrite_refused {buf : Buffer} {len : Nat} (long : buf.readableBytes < len) :
    buf.unwrite len = (false, buf) := by
  simp [unwrite, long]

theorem hasWritten_refused {buf : Buffer} {len : Nat} (long : buf.writableBytes < len) :
    buf.hasWritten len = (false, buf) := by
  simp [hasWritten, long]

theorem prepend_refused {buf : Buffer} {data : Bytes}
    (long : buf.prependableBytes < data.length) : buf.prepend data = (false, buf) := by
  simp [prepend, long]

theorem retrieve_spec {buf : Buffer} {len : Nat} (wellFormed : buf.WellFormed)
    (fits : len ≤ buf.readableBytes) :
    (buf.retrieve len).1 = true ∧ (buf.retrieve len).2.WellFormed ∧
      (buf.retrieve len).2.readable = buf.readable.drop len := by
  have count := wellFormed.readableBytes_eq
  have writerBound := wellFormed.writer_le_size
  have small := wellFormed.size_lt
  rcases Nat.lt_or_ge len buf.readableBytes with part | whole
  · have advanced : sizeAdd buf.readerIndex len = buf.readerIndex + len :=
      sizeAdd_of_lt (by omega)
    rw [retrieve, if_neg (by omega), if_pos part]
    refine ⟨rfl, ⟨?_, writerBound, wellFormed.prepend_le_size, small⟩, ?_⟩
    · change sizeAdd buf.readerIndex len ≤ buf.writerIndex
      omega
    · simp only [readable, Bytes.slice, advanced, List.drop_drop]
  · rw [retrieve, if_neg (by omega), if_neg (by omega)]
    refine ⟨rfl, retrieveAll_wellFormed wellFormed, ?_⟩
    rw [readable_retrieveAll, eq_comm, List.drop_eq_nil_iff, wellFormed.length_readable]
    exact whole

theorem retrieve_size (buf : Buffer) (len : Nat) :
    (buf.retrieve len).2.buffer = buf.buffer := by
  unfold retrieve
  split
  · rfl
  · split <;> rfl

theorem unwrite_spec {buf : Buffer} {len : Nat} (wellFormed : buf.WellFormed)
    (fits : len ≤ buf.readableBytes) :
    (buf.unwrite len).1 = true ∧ (buf.unwrite len).2.WellFormed ∧
      (buf.unwrite len).2.readable =
        buf.readable.take (buf.readable.length - len) := by
  have count := wellFormed.readableBytes_eq
  have ordered := wellFormed.reader_le_writer
  have writerBound := wellFormed.writer_le_size
  have small := wellFormed.size_lt
  have lowered : sizeSub buf.writerIndex len = buf.writerIndex - len :=
    sizeSub_of_le (by omega) (by omega)
  rw [unwrite, if_neg (by omega)]
  refine ⟨rfl, ⟨?_, ?_, wellFormed.prepend_le_size, small⟩, ?_⟩
  · change buf.readerIndex ≤ sizeSub buf.writerIndex len
    omega
  · change sizeSub buf.writerIndex len ≤ buf.buffer.length
    omega
  · rw [wellFormed.length_readable]
    simp only [readable, Bytes.slice, lowered, count, List.take_drop, List.take_take]
    congr 2
    omega

/-! ## Making room -/

theorem makeSpace_spec {buf : Buffer} {len : Nat} (wellFormed : buf.WellFormed)
    (room : buf.Room len) (short : buf.writableBytes < len) :
    (buf.makeSpace len).WellFormed ∧ (buf.makeSpace len).readable = buf.readable ∧
      len ≤ (buf.makeSpace len).writableBytes := by
  have writable := wellFormed.writableBytes_eq
  have ordered := wellFormed.reader_le_writer
  have writerBound := wellFormed.writer_le_size
  have front := wellFormed.prepend_le_size
  have small := wellFormed.size_lt
  have grown : sizeAdd buf.writerIndex len = buf.writerIndex + len := sizeAdd_of_lt room.1
  have wanted : sizeAdd len kCheapPrepend = len + kCheapPrepend := sizeAdd_of_lt room.2
  have spare : sizeAdd buf.writableBytes buf.prependableBytes =
      buf.writableBytes + buf.readerIndex := sizeAdd_of_lt (by
    simp only [prependableBytes]
    omega)
  unfold makeSpace
  rw [wanted, spare, grown]
  split
  · have bound := room.1
    have wf : Buffer.WellFormed
        { buf with buffer := buf.buffer.resize (buf.writerIndex + len) } := by
      constructor
      · exact ordered
      · simp
      · simp only [Bytes.length_resize]
        omega
      · simpa using bound
    refine ⟨wf, ?_, ?_⟩
    · exact Bytes.slice_eq_of_take_eq (Bytes.take_resize writerBound (by omega)) _
    · rw [wf.writableBytes_eq]
      simp
  · next enough =>
    -- With the reader at or in front of the reserved bytes the vector was
    -- already long enough, so the early return is never taken here.
    have behind : ¬ buf.readerIndex ≤ kCheapPrepend := by omega
    rw [if_neg behind]
    have count := wellFormed.readableBytes_eq
    have length := wellFormed.length_readable
    have moved : sizeAdd kCheapPrepend buf.readableBytes =
        kCheapPrepend + buf.readableBytes := sizeAdd_of_lt (by omega)
    have size : (buf.buffer.overwrite kCheapPrepend buf.readable).length =
        buf.buffer.length := Bytes.length_overwrite (by omega)
    have wf : Buffer.WellFormed
        { buffer := buf.buffer.overwrite kCheapPrepend buf.readable
          readerIndex := kCheapPrepend
          writerIndex := sizeAdd kCheapPrepend buf.readableBytes } := by
      constructor
      · change kCheapPrepend ≤ sizeAdd kCheapPrepend buf.readableBytes
        omega
      · change sizeAdd kCheapPrepend buf.readableBytes ≤
          (buf.buffer.overwrite kCheapPrepend buf.readable).length
        omega
      · change kCheapPrepend ≤ (buf.buffer.overwrite kCheapPrepend buf.readable).length
        omega
      · change (buf.buffer.overwrite kCheapPrepend buf.readable).length < 2 ^ 64
        omega
    refine ⟨wf, ?_, ?_⟩
    · simp only [readable, Bytes.slice] at length ⊢
      rw [moved, ← length, Bytes.take_overwrite front]
      exact List.drop_left' (by simp [Nat.min_eq_left front])
    · rw [wf.writableBytes_eq]
      change len ≤ (buf.buffer.overwrite kCheapPrepend buf.readable).length -
        sizeAdd kCheapPrepend buf.readableBytes
      omega

theorem ensureWritableBytes_spec {buf : Buffer} {len : Nat} (wellFormed : buf.WellFormed)
    (room : buf.Room len) :
    (buf.ensureWritableBytes len).WellFormed ∧
      (buf.ensureWritableBytes len).readable = buf.readable ∧
      len ≤ (buf.ensureWritableBytes len).writableBytes := by
  unfold ensureWritableBytes
  split
  · next short => exact makeSpace_spec wellFormed room short
  · next enough => exact ⟨wellFormed, rfl, Nat.le_of_not_lt enough⟩

/-- Under the invariant a request keeps it exactly when the vector, if it is
resized, is not resized to a wrapped length. -/
theorem ensureWritableBytes_wellFormed_iff {buf : Buffer} {len : Nat}
    (wellFormed : buf.WellFormed) (sizeT : len < 2 ^ 64) (short : buf.writableBytes < len)
    (grows : sizeAdd buf.writableBytes buf.prependableBytes < sizeAdd len kCheapPrepend) :
    (buf.ensureWritableBytes len).WellFormed ↔ buf.writerIndex + len < 2 ^ 64 := by
  have ordered := wellFormed.reader_le_writer
  have writerBound := wellFormed.writer_le_size
  have front := wellFormed.prepend_le_size
  have small := wellFormed.size_lt
  have resized : buf.ensureWritableBytes len =
      { buf with buffer := buf.buffer.resize (sizeAdd buf.writerIndex len) } := by
    rw [ensureWritableBytes, if_pos short, makeSpace, if_pos grows]
  rw [resized]
  constructor
  · intro kept
    have inside := kept.writer_le_size
    simp only [Bytes.length_resize, sizeAdd] at inside
    omega
  · intro unwrapped
    have grown := sizeAdd_of_lt unwrapped
    have writable := wellFormed.writableBytes_eq
    constructor
    · exact ordered
    · simp only [Bytes.length_resize]
      omega
    · simp only [Bytes.length_resize]
      omega
    · simp only [Bytes.length_resize]
      omega

/-! ## Putting bytes in -/

theorem hasWritten_spec {buf : Buffer} {len : Nat} (wellFormed : buf.WellFormed)
    (fits : len ≤ buf.writableBytes) :
    (buf.hasWritten len).1 = true ∧ (buf.hasWritten len).2.WellFormed ∧
      (buf.hasWritten len).2.readable =
        buf.readable ++ buf.buffer.slice buf.writerIndex (buf.writerIndex + len) := by
  have writable := wellFormed.writableBytes_eq
  have ordered := wellFormed.reader_le_writer
  have writerBound := wellFormed.writer_le_size
  have small := wellFormed.size_lt
  have raised : sizeAdd buf.writerIndex len = buf.writerIndex + len :=
    sizeAdd_of_lt (by omega)
  rw [hasWritten, if_neg (by omega), raised]
  refine ⟨rfl, ⟨?_, ?_, wellFormed.prepend_le_size, small⟩, ?_⟩
  · change buf.readerIndex ≤ buf.writerIndex + len
    omega
  · change buf.writerIndex + len ≤ buf.buffer.length
    omega
  · have bounded : buf.writerIndex + len ≤ buf.buffer.length := by omega
    exact (Bytes.slice_append ordered (Nat.le_add_right _ _) bounded).symm

theorem written_spec {buf : Buffer} {data : Bytes} (wellFormed : buf.WellFormed)
    (fits : data.length ≤ buf.writableBytes) :
    let filled : Buffer :=
      { buf with
        buffer := buf.buffer.overwrite buf.writerIndex data
        writerIndex := sizeAdd buf.writerIndex data.length }
    filled.WellFormed ∧ filled.readable = buf.readable ++ data ∧
      filled.buffer.length = buf.buffer.length := by
  intro filled
  have writable := wellFormed.writableBytes_eq
  have ordered := wellFormed.reader_le_writer
  have writerBound := wellFormed.writer_le_size
  have small := wellFormed.size_lt
  have raised : filled.writerIndex = buf.writerIndex + data.length :=
    sizeAdd_of_lt (by omega)
  have size : filled.buffer.length = buf.buffer.length := Bytes.length_overwrite (by omega)
  refine ⟨⟨?_, by omega, ?_, by omega⟩, ?_, size⟩
  · change buf.readerIndex ≤ filled.writerIndex
    omega
  · rw [size]
    exact wellFormed.prepend_le_size
  · change filled.buffer.slice buf.readerIndex filled.writerIndex = _
    rw [raised]
    simp only [filled, readable, Bytes.slice, Bytes.take_overwrite writerBound]
    exact List.drop_append_of_le_length (by simp [Nat.min_eq_left writerBound, ordered])

private theorem append_eq {buf : Buffer} {data : Bytes} (wellFormed : buf.WellFormed)
    (room : buf.Room data.length) :
    buf.append data =
      { buf.ensureWritableBytes data.length with
        buffer := (buf.ensureWritableBytes data.length).buffer.overwrite
          (buf.ensureWritableBytes data.length).writerIndex data
        writerIndex := sizeAdd (buf.ensureWritableBytes data.length).writerIndex
          data.length } := by
  rcases ensureWritableBytes_spec wellFormed room with ⟨spacedWf, -, enough⟩
  have size := (written_spec spacedWf enough).2.2
  have accepted : ¬ Buffer.writableBytes
      { buf.ensureWritableBytes data.length with
        buffer := (buf.ensureWritableBytes data.length).buffer.overwrite
          (buf.ensureWritableBytes data.length).writerIndex data } < data.length := by
    unfold writableBytes at enough ⊢
    simp only at size ⊢
    rw [size]
    omega
  rw [append]
  simp only [hasWritten, if_neg accepted]

theorem append_spec {buf : Buffer} {data : Bytes} (wellFormed : buf.WellFormed)
    (room : buf.Room data.length) :
    (buf.append data).WellFormed ∧ (buf.append data).readable = buf.readable ++ data := by
  rcases ensureWritableBytes_spec wellFormed room with ⟨spacedWf, same, enough⟩
  rcases written_spec spacedWf enough with ⟨filledWf, filled, -⟩
  rw [append_eq wellFormed room]
  exact ⟨filledWf, by rw [filled, same]⟩

theorem length_append_le {buf : Buffer} {data : Bytes} (wellFormed : buf.WellFormed)
    (room : buf.Room data.length) :
    (buf.append data).buffer.length ≤
      max buf.buffer.length
        (2 * data.length + kCheapPrepend + buf.readable.length) := by
  rcases ensureWritableBytes_spec wellFormed room with ⟨spacedWf, -, enough⟩
  have size := (written_spec spacedWf enough).2.2
  have writable := wellFormed.writableBytes_eq
  have count := wellFormed.readableBytes_eq
  have length := wellFormed.length_readable
  have ordered := wellFormed.reader_le_writer
  have writerBound := wellFormed.writer_le_size
  have front := wellFormed.prepend_le_size
  have small := wellFormed.size_lt
  rw [append_eq wellFormed room]
  simp only at size ⊢
  rw [size, ensureWritableBytes]
  split
  · next short =>
    rw [makeSpace]
    split
    · next grows =>
      have spare : sizeAdd buf.writableBytes buf.prependableBytes =
          buf.writableBytes + buf.readerIndex := sizeAdd_of_lt (by
        simp only [prependableBytes]
        omega)
      rw [spare, sizeAdd_of_lt room.2] at grows
      simp only [Bytes.length_resize, sizeAdd_of_lt room.1]
      omega
    · split
      · exact Nat.le_max_left _ _
      · rw [Bytes.length_overwrite (by omega)]
        exact Nat.le_max_left _ _
  · exact Nat.le_max_left _ _

theorem prepend_spec {buf : Buffer} {data : Bytes} (wellFormed : buf.WellFormed)
    (fits : data.length ≤ buf.prependableBytes) :
    (buf.prepend data).1 = true ∧ (buf.prepend data).2.WellFormed ∧
      (buf.prepend data).2.readable = data ++ buf.readable := by
  have ordered := wellFormed.reader_le_writer
  have writerBound := wellFormed.writer_le_size
  have small := wellFormed.size_lt
  have enough : data.length ≤ buf.readerIndex := fits
  have lowered : sizeSub buf.readerIndex data.length = buf.readerIndex - data.length :=
    sizeSub_of_le fits (by omega)
  have size : (buf.buffer.overwrite (buf.readerIndex - data.length) data).length =
      buf.buffer.length := Bytes.length_overwrite (by omega)
  rw [prepend, if_neg (by omega)]
  simp only [lowered]
  refine ⟨trivial, ⟨?_, ?_, ?_, ?_⟩, ?_⟩
  · change buf.readerIndex - data.length ≤ buf.writerIndex
    omega
  · change buf.writerIndex ≤ (buf.buffer.overwrite _ data).length
    omega
  · change kCheapPrepend ≤ (buf.buffer.overwrite _ data).length
    rw [size]
    exact wellFormed.prepend_le_size
  · change (buf.buffer.overwrite _ data).length < 2 ^ 64
    omega
  · change (buf.buffer.overwrite _ data).slice _ _ = data ++ buf.readable
    have inMemory : buf.readerIndex - data.length + data.length ≤ buf.buffer.length := by
      omega
    have before : buf.readerIndex - data.length + data.length ≤ buf.writerIndex := by
      omega
    rw [Bytes.slice_overwrite_front inMemory before, Nat.sub_add_cancel enough]
    rfl

theorem toStringPiece_of_small {buf : Buffer} (wellFormed : buf.WellFormed)
    (small : buf.readable.length < 2 ^ 31) : buf.toStringPiece = some buf.readable := by
  have count := wellFormed.length_readable
  have exactCast : int32 buf.readableBytes = buf.readableBytes := int32_of_lt (by omega)
  rw [toStringPiece, exactCast, if_neg (by omega)]
  simp [← count]

/-- Asking a fresh buffer for room never wraps: either the vector grows by an
unwrapped request or it is left alone. -/
private theorem fresh_ensureWritableBytes (len : Nat) (sizeT : len < 2 ^ 64) :
    let other := (create kInitialSize).ensureWritableBytes len
    other.WellFormed ∧ other.readable = [] ∧ other.writerIndex = kCheapPrepend := by
  have fresh : (create kInitialSize).WellFormed := create_wellFormed (by decide)
  have size : (create kInitialSize).buffer.length = 1032 := List.length_replicate
  have writer : (create kInitialSize).writerIndex = 8 := rfl
  have reader : (create kInitialSize).readerIndex = 8 := rfl
  have writable := fresh.writableBytes_eq
  intro other
  by_cases short : (create kInitialSize).writableBytes < len
  · by_cases grows : sizeAdd (create kInitialSize).writableBytes
        (create kInitialSize).prependableBytes < sizeAdd len kCheapPrepend
    · have spare : sizeAdd (create kInitialSize).writableBytes
          (create kInitialSize).prependableBytes = 1032 := by
        rw [writable, size, writer]
        rfl
      have room : (create kInitialSize).Room len := by
        rw [spare] at grows
        simp only [sizeAdd, kCheapPrepend] at grows
        constructor
        · omega
        · simp only [kCheapPrepend]
          omega
      rcases ensureWritableBytes_spec fresh room with ⟨wf, same, -⟩
      refine ⟨wf, by rw [same, readable_create], ?_⟩
      simp only [other, ensureWritableBytes, if_pos short, makeSpace, if_pos grows]
      rfl
    · have kept : other = create kInitialSize := by
        simp only [other, ensureWritableBytes, if_pos short, makeSpace, if_neg grows]
        rfl
      rw [kept]
      exact ⟨fresh, readable_create _, rfl⟩
  · have kept : other = create kInitialSize := by
      simp only [other, ensureWritableBytes, if_neg short]
    rw [kept]
    exact ⟨fresh, readable_create _, rfl⟩

/-- However many bytes are readable, `shrink` keeps the index order: a string of a negative
length throws, and any other is shorter than `2 ^ 31`. -/
theorem shrink_wellFormed {buf : Buffer} {reserve : Nat} (wellFormed : buf.WellFormed) :
    (buf.shrink reserve).WellFormed := by
  rcases fresh_ensureWritableBytes (sizeAdd buf.readableBytes reserve)
      (Nat.mod_lt _ (by decide)) with ⟨otherWf, _, otherWriter⟩
  rw [shrink]
  cases spelled : buf.toStringPiece with
  | none => exact wellFormed
  | some piece =>
      have short : piece.length < 2 ^ 32 := by
        rw [toStringPiece] at spelled
        split at spelled
        · cases spelled
        · cases spelled
          have taken := List.length_take_le (int32 buf.readableBytes).toNat buf.readable
          have low : int32 buf.readableBytes < 2 ^ 32 := by
            unfold int32
            split <;> omega
          omega
      have room : ((create kInitialSize).ensureWritableBytes
          (sizeAdd buf.readableBytes reserve)).Room piece.length := by
        constructor
        · rw [otherWriter, kCheapPrepend]
          omega
        · rw [kCheapPrepend]
          omega
      exact (append_spec otherWf room).1

theorem shrink_spec {buf : Buffer} {reserve : Nat} (wellFormed : buf.WellFormed)
    (small : buf.readable.length < 2 ^ 31) :
    (buf.shrink reserve).WellFormed ∧ (buf.shrink reserve).readable = buf.readable := by
  rcases fresh_ensureWritableBytes (sizeAdd buf.readableBytes reserve)
      (Nat.mod_lt _ (by decide)) with ⟨otherWf, otherEmpty, otherWriter⟩
  have room : ((create kInitialSize).ensureWritableBytes
      (sizeAdd buf.readableBytes reserve)).Room buf.readable.length := by
    constructor
    · rw [otherWriter, kCheapPrepend]
      omega
    · rw [kCheapPrepend]
      omega
  have appended := append_spec otherWf room
  rw [otherEmpty, List.nil_append] at appended
  simpa only [shrink, toStringPiece_of_small wellFormed small] using appended

/-! ## Reading from a socket -/

/-- What the kernel promises of a read, and that `extrabuf` can be appended. -/
def Receivable (buf : Buffer) (platform : Platform) : ReadResult → Prop
  | .received data =>
      0 < data.length ∧ data.length ≤ buf.readFdCapacity platform ∧
        buf.buffer.length + extrabufSize < 2 ^ 64
  | .endOfStream => True
  | .failed _ => True

theorem readFd_received_spec {buf : Buffer} {platform : Platform} {data : Bytes}
    (wellFormed : buf.WellFormed) (receivable : buf.Receivable platform (.received data)) :
    (buf.readFd platform (.received data)).2.WellFormed ∧
      (buf.readFd platform (.received data)).2.readable = buf.readable ++ data := by
  rcases receivable with ⟨-, within, room⟩
  have writerBound := wellFormed.writer_le_size
  have small := wellFormed.size_lt
  have writable := wellFormed.writableBytes_eq
  have extra : extrabufSize = 65536 := rfl
  have front : kCheapPrepend = 8 := rfl
  cases platform with
  | windows =>
      have within : data.length ≤ extrabufSize := within
      exact append_spec wellFormed ⟨by omega, by omega⟩
  | posix =>
      have front : (data.take buf.writableBytes).length ≤ buf.writableBytes :=
        List.length_take_le _ _
      have filledSpec := written_spec wellFormed front
      by_cases direct : data.length ≤ buf.writableBytes
      · rw [List.take_of_length_le direct] at filledSpec
        simp only [readFd, if_pos direct, List.take_of_length_le direct]
        exact ⟨filledSpec.1, filledSpec.2.1⟩
      · rcases filledSpec with ⟨filledWf, filled, size⟩
        have within : data.length ≤ buf.writableBytes + extrabufSize := by
          simp only [readFdCapacity] at within
          split at within <;> omega
        have taken : (data.take buf.writableBytes).length = buf.writableBytes :=
          List.length_take_of_le (by omega)
        have full : sizeAdd buf.writerIndex (data.take buf.writableBytes).length =
            (buf.buffer.overwrite buf.writerIndex (data.take buf.writableBytes)).length := by
          have raised : sizeAdd buf.writerIndex buf.writableBytes =
              buf.writerIndex + buf.writableBytes := sizeAdd_of_lt (by omega)
          simp only at size
          rw [size, taken, raised]
          omega
        rw [full] at filledWf filled
        have dropped : (data.drop buf.writableBytes).length ≤ extrabufSize := by
          rw [List.length_drop]
          omega
        have rest : Room
            { buf with
              buffer := buf.buffer.overwrite buf.writerIndex (data.take buf.writableBytes)
              writerIndex :=
                (buf.buffer.overwrite buf.writerIndex (data.take buf.writableBytes)).length }
            (data.drop buf.writableBytes).length :=
          ⟨by simp only at size ⊢; omega, by omega⟩
        have appended := append_spec filledWf rest
        rw [filled, List.append_assoc, List.take_append_drop] at appended
        simpa only [readFd, if_neg direct] using appended

end MyBookSources.Net.Buffer
