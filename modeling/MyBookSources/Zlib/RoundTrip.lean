import MyBookSources.Zlib.StoredBlocks
import Mathlib.Order.Lattice.Nat

/-! # Compressing and decompressing

Both loops hand out as many windows as zlib needs calls to take its input, whatever it still
holds back then. So a string survives exactly when these windows have room: those of `deflate`
for the bytes that determine the string and four more, and those of `inflate` for the string.
-/

namespace MyBookSources.Zlib

open Streaming

namespace ZlibUtil

/-- `strSrc` comes back from `deflate` followed by `inflate`. -/
def RoundTrips (zlib : Implementation) (strSrc : Bytes) : Prop :=
  ∃ fuel compressed, deflate zlib fuel strSrc [] = some (true, compressed) ∧
    ∃ fuel, inflate zlib fuel compressed [] = some (true, strSrc)

/-- How many bytes of a complete flush determine its input. -/
noncomputable def neededBytes (compressed plain : Bytes → Bytes) (strSrc : Bytes) : Nat :=
  sInf {count | plain ((compressed strSrc).take count) = strSrc}

/-- How many bytes of a complete flush `inflate` gets, if `deflate` makes that many calls: what
fits the windows, without four bytes and as much of it as `avail_in` counts. -/
def deliveredBytes (flush : Bytes) (calls : Nat) : Nat :=
  (min flush.length (OUTPUT_BUF_SIZE * calls) - flushMarker.length) % 2 ^ 32

/-- The windows of the calls in which zlib takes its input have room for what is needed. -/
def WindowsSuffice (zlib : Implementation) (compressed plain : Bytes → Bytes) (strSrc : Bytes) :
    Prop :=
  ∃ deflating ∈ zlib.deflateInit2, ∃ inflating ∈ zlib.inflateInit2, ∃ deflateCalls inflateCalls,
    UsedUpBy zlib.deflate OUTPUT_BUF_SIZE deflating strSrc deflateCalls ∧
    neededBytes compressed plain strSrc ≤ deliveredBytes (compressed strSrc) deflateCalls ∧
    UsedUpBy zlib.inflate OUTPUT_BUF_SIZE inflating
      ((compressed strSrc).take (deliveredBytes (compressed strSrc) deflateCalls)) inflateCalls ∧
    strSrc.length ≤ OUTPUT_BUF_SIZE * inflateCalls

theorem availableInput_of_lt {strSrc : Bytes} (short : strSrc.length < 2 ^ 32) :
    availableInput strSrc = strSrc := by
  rw [availableInput, Nat.mod_eq_of_lt short, List.take_length]

theorem availableInput_withoutMarker {flush : Bytes} {calls : Nat}
    (marked : flushMarker.length ≤ flush.length) (some : 0 < calls) :
    availableInput (withoutMarker (flush.take (OUTPUT_BUF_SIZE * calls))) =
      flush.take (deliveredBytes flush calls) := by
  have four : flushMarker.length = 4 := rfl
  have window : OUTPUT_BUF_SIZE ≤ OUTPUT_BUF_SIZE * calls := Nat.le_mul_of_pos_right _ some
  have large : 4 ≤ OUTPUT_BUF_SIZE := by decide
  have size := List.length_take (i := OUTPUT_BUF_SIZE * calls) (l := flush)
  have enough : ¬ (flush.take (OUTPUT_BUF_SIZE * calls)).length < 4 := by omega
  have below : (flush.take (OUTPUT_BUF_SIZE * calls)).length - 4 ≤ OUTPUT_BUF_SIZE * calls := by
    omega
  rw [withoutMarker, if_neg enough, List.take_take, Nat.min_eq_left below, size, availableInput,
    List.take_take, deliveredBytes, four]
  congr 1
  rw [List.length_take]
  omega

/-! ## Each function -/

theorem deflate_unique {zlib : Implementation} {fuelLeft fuelRight : Nat} {strSrc strDest : Bytes}
    {left right : Bool × Bytes} (runLeft : deflate zlib fuelLeft strSrc strDest = some left)
    (runRight : deflate zlib fuelRight strSrc strDest = some right) : left = right := by
  cases init : zlib.deflateInit2 with
  | none =>
      simp only [deflate, init] at runLeft runRight
      exact Option.some.inj (runLeft.symm.trans runRight)
  | some stream =>
      simp only [deflate, init] at runLeft runRight
      rcases Option.map_eq_some_iff.mp runLeft with ⟨exitLeft, drainedLeft, rfl⟩
      rcases Option.map_eq_some_iff.mp runRight with ⟨exitRight, drainedRight, rfl⟩
      rw [drain_unique drainedLeft drainedRight]

theorem inflate_unique {zlib : Implementation} {fuelLeft fuelRight : Nat} {strSrc strDest : Bytes}
    {left right : Bool × Bytes} (runLeft : inflate zlib fuelLeft strSrc strDest = some left)
    (runRight : inflate zlib fuelRight strSrc strDest = some right) : left = right := by
  cases init : zlib.inflateInit2 with
  | none =>
      simp only [inflate, init] at runLeft runRight
      exact Option.some.inj (runLeft.symm.trans runRight)
  | some stream =>
      simp only [inflate, init] at runLeft runRight
      rcases Option.map_eq_some_iff.mp runLeft with ⟨exitLeft, drainedLeft, rfl⟩
      rcases Option.map_eq_some_iff.mp runRight with ⟨exitRight, drainedRight, rfl⟩
      rw [drain_unique drainedLeft drainedRight]

section

variable {zlib : Implementation} {compressed plain : Bytes → Bytes}
  (documented : Documented zlib compressed plain) {strSrc : Bytes} (nonempty : strSrc ≠ [])

include documented nonempty

theorem deflate_returns (short : strSrc.length < 2 ^ 32) {deflating : zlib.DeflateStream}
    (init : deflating ∈ zlib.deflateInit2) {calls : Nat}
    (used : UsedUpBy zlib.deflate OUTPUT_BUF_SIZE deflating strSrc calls) :
    ∃ fuel, deflate zlib fuel strSrc [] =
      some (true, withoutMarker ((compressed strSrc).take (OUTPUT_BUF_SIZE * calls))) := by
  have streams := documented.deflate_streams deflating init strSrc nonempty
  rcases drain_of_usedUpBy streams .start nonempty used [] with ⟨fuel, finished⟩
  refine ⟨fuel, ?_⟩
  rw [deflate, Option.mem_def.mp init]
  simp [availableInput_of_lt short, finished]

theorem inflate_returns {inflating : zlib.InflateStream} (init : inflating ∈ zlib.inflateInit2)
    {source : Bytes} (available : availableInput source ≠ [])
    (front : availableInput source <+: compressed strSrc) {calls : Nat}
    (used : UsedUpBy zlib.inflate OUTPUT_BUF_SIZE inflating (availableInput source) calls) :
    ∃ fuel, inflate zlib fuel source [] =
      some (true, (plain (availableInput source)).take (OUTPUT_BUF_SIZE * calls)) := by
  have streams := documented.inflate_streams inflating init strSrc _ nonempty available front
  rcases drain_of_usedUpBy streams .start available used [] with ⟨fuel, finished⟩
  refine ⟨fuel, ?_⟩
  rw [inflate, Option.mem_def.mp init]
  simp [finished]

omit nonempty in
theorem inflate_nothing_fails {source : Bytes} (nothing : availableInput source = [])
    (fuel : Nat) (dest : Bytes) : inflate zlib fuel source [] ≠ some (true, dest) := by
  rcases Option.isSome_iff_exists.mp documented.inflateInit2 with ⟨inflating, init⟩
  have status := documented.inflate_nothing inflating init
  have failed : drain zlib.inflate 1 inflating [] [] = some (.failed, []) := by
    simp [drain, status]
  intro returned
  have once : inflate zlib 1 source [] = some (false, []) := by
    simp [inflate, init, nothing, failed]
  cases inflate_unique returned once

/-- What `inflate` gets of what `deflate` has handed out. -/
theorem availableInput_deflated {calls : Nat} (some : 0 < calls) :
    availableInput (withoutMarker ((compressed strSrc).take (OUTPUT_BUF_SIZE * calls))) =
      (compressed strSrc).take (deliveredBytes (compressed strSrc) calls) := by
  rcases documented.flush_marker strSrc nonempty with ⟨blocks, whole, _⟩
  have marked : flushMarker.length ≤ (compressed strSrc).length := by
    rw [whole, List.length_append]
    exact Nat.le_add_left ..
  exact availableInput_withoutMarker marked some

theorem plain_delivered_isPrefix (calls : Nat) :
    plain ((compressed strSrc).take (deliveredBytes (compressed strSrc) calls)) <+: strSrc := by
  rcases documented.flush_marker strSrc nonempty with ⟨blocks, whole, spelled⟩
  have inBlocks : deliveredBytes (compressed strSrc) calls ≤ blocks.length := by
    refine (Nat.mod_le _ _).trans ?_
    rw [whole, List.length_append]
    omega
  have front : (compressed strSrc).take (deliveredBytes (compressed strSrc) calls) <+: blocks := by
    generalize deliveredBytes (compressed strSrc) calls = count at inBlocks ⊢
    rw [whole, List.take_append_of_le_length inBlocks]
    exact List.take_prefix _ _
  have blocksFront : blocks <+: compressed strSrc := ⟨flushMarker, whole.symm⟩
  have inside := documented.plain_isPrefix strSrc _ _ nonempty blocksFront front
  rwa [spelled] at inside

/-- What `inflate` gets determines the string exactly when it has the bytes that are needed. -/
theorem plain_delivered_iff (calls : Nat) :
    plain ((compressed strSrc).take (deliveredBytes (compressed strSrc) calls)) = strSrc ↔
      neededBytes compressed plain strSrc ≤ deliveredBytes (compressed strSrc) calls := by
  constructor
  · intro determined
    exact Nat.sInf_le determined
  · intro enough
    rcases documented.flush_marker strSrc nonempty with ⟨blocks, whole, spelled⟩
    have some : {count | plain ((compressed strSrc).take count) = strSrc}.Nonempty := by
      refine ⟨blocks.length, ?_⟩
      change plain ((compressed strSrc).take blocks.length) = strSrc
      rw [whole, List.take_left, spelled]
    have least : plain ((compressed strSrc).take (neededBytes compressed plain strSrc)) = strSrc :=
      Nat.sInf_mem some
    have lower := documented.plain_isPrefix strSrc _ _ nonempty (List.take_prefix _ _)
      (List.take_prefix_take_left enough)
    rw [least] at lower
    have upper := plain_delivered_isPrefix documented nonempty calls
    exact upper.eq_of_length_le lower.length_le

/-- A string that has come back had room in the windows of both. -/
theorem windowsSuffice_of_roundTrips (short : strSrc.length < 2 ^ 32)
    (roundTrips : RoundTrips zlib strSrc) : WindowsSuffice zlib compressed plain strSrc := by
  rcases Option.isSome_iff_exists.mp documented.deflateInit2 with ⟨deflating, initDeflate⟩
  rcases Option.isSome_iff_exists.mp documented.inflateInit2 with ⟨inflating, initInflate⟩
  have streams := documented.deflate_streams deflating initDeflate strSrc nonempty
  rcases streams.exists_usedUpBy (by decide) .start nonempty with ⟨deflateCalls, used⟩
  rcases deflate_returns documented nonempty short initDeflate used with ⟨fuel, returned⟩
  rcases roundTrips with ⟨fuelDeflate, source, deflated, fuelInflate, inflated⟩
  cases deflate_unique deflated returned
  have received := availableInput_deflated documented nonempty used.pos
  have available : availableInput
      (withoutMarker ((compressed strSrc).take (OUTPUT_BUF_SIZE * deflateCalls))) ≠ [] := by
    intro nothing
    exact inflate_nothing_fails documented nothing fuelInflate strSrc inflated
  have front : availableInput
      (withoutMarker ((compressed strSrc).take (OUTPUT_BUF_SIZE * deflateCalls))) <+:
        compressed strSrc := by
    rw [received]
    exact List.take_prefix _ _
  have streamsBack := documented.inflate_streams inflating initInflate strSrc _ nonempty
    available front
  rcases streamsBack.exists_usedUpBy (by decide) .start available with ⟨inflateCalls, usedBack⟩
  rcases inflate_returns documented nonempty initInflate available front usedBack with
    ⟨fuelBack, returnedBack⟩
  have same := inflate_unique inflated returnedBack
  simp only [Prod.mk.injEq, true_and] at same
  rw [received] at same usedBack
  -- What comes back is a front of what was received, and that is a front of the string.
  have upper := plain_delivered_isPrefix documented nonempty deflateCalls
  have room := congrArg List.length same
  rw [List.length_take] at room
  have determined := upper.eq_of_length_le (room ▸ Nat.min_le_right ..)
  rw [determined] at room
  exact ⟨deflating, initDeflate, inflating, initInflate, deflateCalls, inflateCalls, used,
    (plain_delivered_iff documented nonempty deflateCalls).mp determined, usedBack, by omega⟩

theorem roundTrips_of_windowsSuffice (short : strSrc.length < 2 ^ 32)
    (suffice : WindowsSuffice zlib compressed plain strSrc) : RoundTrips zlib strSrc := by
  rcases suffice with ⟨deflating, initDeflate, inflating, initInflate, deflateCalls, inflateCalls,
    used, enough, usedBack, room⟩
  rcases deflate_returns documented nonempty short initDeflate used with ⟨fuel, returned⟩
  have received := availableInput_deflated documented nonempty used.pos
  have determined := (plain_delivered_iff documented nonempty deflateCalls).mpr enough
  rw [← received] at usedBack determined
  have available : availableInput
      (withoutMarker ((compressed strSrc).take (OUTPUT_BUF_SIZE * deflateCalls))) ≠ [] := by
    intro nothing
    rw [nothing, documented.plain_nil] at determined
    exact nonempty determined.symm
  have front : availableInput
      (withoutMarker ((compressed strSrc).take (OUTPUT_BUF_SIZE * deflateCalls))) <+:
        compressed strSrc := by
    rw [received]
    exact List.take_prefix _ _
  rcases inflate_returns documented nonempty initInflate available front usedBack with
    ⟨fuelBack, returnedBack⟩
  rw [determined, List.take_of_length_le room] at returnedBack
  exact ⟨fuel, _, returned, fuelBack, returnedBack⟩

/-- A string comes back exactly when the windows have room: those of `deflate` for the bytes that
determine it and the four that are cut off, and those of `inflate` for the string. -/
theorem roundTrips_iff (short : strSrc.length < 2 ^ 32) :
    RoundTrips zlib strSrc ↔ WindowsSuffice zlib compressed plain strSrc := by
  constructor
  · exact windowsSuffice_of_roundTrips documented nonempty short
  · exact roundTrips_of_windowsSuffice documented nonempty short

end

/-! ## Input that does not compress -/

/-- Forty bytes without repetition. -/
def shortSample : Bytes := (List.range 40).map fun i => UInt8.ofNat (144 + i)

/-- They fit the window of either call. -/
theorem roundTrips_iff_short : RoundTrips StoredBlocks.implementation shortSample := by
  have determined : StoredBlocks.plain ((StoredBlocks.compressed shortSample).take
      (deliveredBytes (StoredBlocks.compressed shortSample) 1)) = shortSample := by decide +kernel
  apply (roundTrips_iff StoredBlocks.documented (by decide) (by decide)).mpr
  exact ⟨[], rfl, .start, rfl, 1, 1, .last (Nat.le_refl _), Nat.sInf_le determined,
    .last (by decide +kernel), by decide⟩

/-- `deflate` has one window, which holds at most 8183 bytes of data next to a header and what is
cut off. -/
theorem long_not_roundTrips {strSrc : Bytes} (long : 8183 < strSrc.length)
    (short : strSrc.length < 2 ^ 32) : ¬ RoundTrips StoredBlocks.implementation strSrc := by
  intro roundTrips
  have nonempty : strSrc ≠ [] := List.length_pos_iff.mp (by omega)
  rcases windowsSuffice_of_roundTrips StoredBlocks.documented nonempty short roundTrips with
    ⟨deflating, initDeflate, _, _, calls, _, used, enough, _, _⟩
  cases initDeflate
  have once : calls = 1 := by
    cases used with
    | last _ => rfl
    | more part _ => exact absurd part (Nat.lt_irrefl _)
  have got : deliveredBytes (StoredBlocks.compressed strSrc) calls ≤ 8188 := by
    rw [once]
    refine (Nat.mod_le _ _).trans ?_
    have window : OUTPUT_BUF_SIZE * 1 = 8192 := rfl
    have four : flushMarker.length = 4 := rfl
    omega
  have determined := (plain_delivered_iff StoredBlocks.documented nonempty calls).mpr enough
  have data := StoredBlocks.length_plain_le
    ((StoredBlocks.compressed strSrc).take (deliveredBytes (StoredBlocks.compressed strSrc) calls))
  rw [determined, List.length_take] at data
  omega

/-- Nine thousand bytes that do not compress. -/
def longSample : Bytes :=
  (List.range 9000).map fun i => UInt8.ofNat ((31 * i ^ 3 + 17 * i ^ 2 + 7 * i) / 64)

theorem long_sample_lost :
    Documented StoredBlocks.implementation StoredBlocks.compressed StoredBlocks.plain ∧
      longSample ≠ [] ∧ longSample.length < 2 ^ 32 ∧
      ¬ RoundTrips StoredBlocks.implementation longSample := by
  have size : longSample.length = 9000 := by
    rw [longSample, List.length_map, List.length_range]
  refine ⟨StoredBlocks.documented, List.length_pos_iff.mp (by omega), by omega, ?_⟩
  exact long_not_roundTrips (by omega) (by omega)

end ZlibUtil

end MyBookSources.Zlib
