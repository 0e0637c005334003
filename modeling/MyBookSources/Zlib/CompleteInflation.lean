import MyBookSources.Zlib.FixedBlock
import MyBookSources.Zlib.RoundTrip

/-! # Complete decompression

The loop of `inflate` ends with the call that takes the last byte of its input, whether or not
its window was full. What is decompressed is complete exactly if one window had room for what
was still to come.
-/

namespace MyBookSources.Zlib.ZlibUtil

open Streaming

variable {Stream : Type}

def GoesOn (call : Call Stream Status Byte) (input : Bytes) : Prop :=
  call.status = .ok ∧ call.output.length = OUTPUT_BUF_SIZE ∧ call.taken < input.length

instance (call : Call Stream Status Byte) (input : Bytes) : Decidable (GoesOn call input) :=
  inferInstanceAs (Decidable (_ ∧ _))

/-- The stream and the input of the last call that the loop makes. -/
inductive LastCall (coder : Coder Stream Status Byte Byte) :
    Stream → Bytes → Stream → Bytes → Prop
  | now {stream input} : ¬ GoesOn (coder stream input OUTPUT_BUF_SIZE) input →
      LastCall coder stream input stream input
  | later {stream input last rest} : GoesOn (coder stream input OUTPUT_BUF_SIZE) input →
      LastCall coder (coder stream input OUTPUT_BUF_SIZE).state
        (input.drop (coder stream input OUTPUT_BUF_SIZE).taken) last rest →
      LastCall coder stream input last rest

/-- If `inflate` returns true then it has appended all that `strSrc` determines. -/
def InflatesWhole (zlib : Implementation) (determined : zlib.InflateStream → Bytes → Bytes)
    (strSrc : Bytes) : Prop :=
  ∀ fuel strDest, inflate zlib fuel strSrc [] = some (true, strDest) →
    ∀ stream ∈ zlib.inflateInit2, strDest = determined stream strSrc

/-- If zlib accepts the input of the loop's last call then all that is to come before it fits
one window, and the bytes that the 32-bit count leaves out determine nothing. -/
def LastWindowFits (zlib : Implementation) (determined : zlib.InflateStream → Bytes → Bytes)
    (strSrc : Bytes) : Prop :=
  ∀ stream ∈ zlib.inflateInit2, ∀ last rest,
    LastCall zlib.inflate stream (availableInput strSrc) last rest →
    (zlib.inflate last rest OUTPUT_BUF_SIZE).status ≠ .error →
      (determined last rest).length ≤ OUTPUT_BUF_SIZE ∧
        determined stream (availableInput strSrc) = determined stream strSrc

theorem LastCall.ends {coder : Coder Stream Status Byte Byte} {stream last : Stream}
    {input rest : Bytes} (lastCall : LastCall coder stream input last rest) :
    ¬ GoesOn (coder last rest OUTPUT_BUF_SIZE) rest := by
  induction lastCall with
  | now ends => exact ends
  | later _ _ induction => exact induction

theorem lastCall_of_drain {coder : Coder Stream Status Byte Byte} {fuel : Nat} {stream : Stream}
    {input strDest : Bytes} {exit : LoopExit} {handed : Bytes}
    (drained : drain coder fuel stream input strDest = some (exit, handed))
    (returned : exit ≠ .failed) :
    ∃ last rest, LastCall coder stream input last rest ∧
      (coder last rest OUTPUT_BUF_SIZE).status ≠ .error := by
  induction fuel generalizing stream input strDest with
  | zero => cases drained
  | succ fuel induction =>
      by_cases goesOn : GoesOn (coder stream input OUTPUT_BUF_SIZE) input
      · rcases goesOn with ⟨status, full, part⟩
        rw [drain_continued status part full] at drained
        rcases induction drained with ⟨last, rest, lastCall, accepted⟩
        exact ⟨last, rest, .later ⟨status, full, part⟩ lastCall, accepted⟩
      · refine ⟨stream, input, .now goesOn, ?_⟩
        intro failed
        rw [drain, failed] at drained
        simp only [reduceCtorEq, false_and, if_false] at drained
        cases drained
        exact returned rfl

section

variable {coder : Coder Stream Status Byte Byte} {determined : Stream → Bytes → Bytes}
  (determines : Determines coder .ok .streamEnd OUTPUT_BUF_SIZE determined)

include determines

theorem ends_or_takes_all {stream : Stream} {input : Bytes}
    (ends : ¬ GoesOn (coder stream input OUTPUT_BUF_SIZE) input)
    (accepted : (coder stream input OUTPUT_BUF_SIZE).status ≠ .error) :
    (coder stream input OUTPUT_BUF_SIZE).status = .streamEnd ∨
      (coder stream input OUTPUT_BUF_SIZE).status = .ok ∧
        (coder stream input OUTPUT_BUF_SIZE).taken = input.length := by
  cases status : (coder stream input OUTPUT_BUF_SIZE).status with
  | error => exact absurd status accepted
  | streamEnd => exact .inl rfl
  | ok =>
      right
      refine ⟨rfl, ?_⟩
      rcases determines.exhausts stream input status with all | full
      · exact all
      · have within := determines.taken_le stream input
        by_contra part
        exact ends ⟨status, full, by omega⟩

/-- The last call that zlib accepts hands out what is to come exactly if it fits the window. -/
theorem last_output_iff {stream : Stream} {input : Bytes}
    (ends : ¬ GoesOn (coder stream input OUTPUT_BUF_SIZE) input)
    (accepted : (coder stream input OUTPUT_BUF_SIZE).status ≠ .error) :
    (coder stream input OUTPUT_BUF_SIZE).output = determined stream input ↔
      (determined stream input).length ≤ OUTPUT_BUF_SIZE := by
  rcases ends_or_takes_all determines ends accepted with ended | ⟨status, all⟩
  · rw [determines.ends stream input ended]
    simp [determines.output_le stream input]
  · rw [← determines.nothing_held_back_iff status all]
    have parts := determines.continues stream input status
    rw [all, List.drop_length] at parts
    rw [parts]
    exact List.self_eq_append_right

theorem drain_lastCall {stream last : Stream} {input rest : Bytes}
    (lastCall : LastCall coder stream input last rest)
    (accepted : (coder last rest OUTPUT_BUF_SIZE).status ≠ .error) :
    ∃ handed, determined stream input = handed ++ determined last rest ∧
      ∀ strDest, ∃ fuel exit, exit ≠ .failed ∧ drain coder fuel stream input strDest =
        some (exit, strDest ++ handed ++ (coder last rest OUTPUT_BUF_SIZE).output) := by
  induction lastCall with
  | @now stream input ends =>
      refine ⟨[], rfl, ?_⟩
      intro strDest
      rw [List.append_nil]
      rcases ends_or_takes_all determines ends accepted with ended | ⟨status, all⟩
      · refine ⟨1, .streamEnd, by decide, ?_⟩
        simp [drain, ended]
      · exact ⟨1, .processed, by decide, drain_processed status all.ge 0 strDest⟩
  | @later stream input last rest goesOn _ induction =>
      rcases goesOn with ⟨status, full, part⟩
      rcases induction accepted with ⟨handed, parts, drains⟩
      refine ⟨(coder stream input OUTPUT_BUF_SIZE).output ++ handed, ?_, ?_⟩
      · rw [determines.continues stream input status, parts, List.append_assoc]
      · intro strDest
        rcases drains (strDest ++ (coder stream input OUTPUT_BUF_SIZE).output) with
          ⟨fuel, exit, returned, drained⟩
        refine ⟨fuel + 1, exit, returned, ?_⟩
        rw [drain_continued status part full, drained]
        simp only [List.append_assoc]

end

/-- `inflate` returns true exactly with what the loop hands out up to a last call that zlib
accepts. -/
theorem inflate_true_iff {zlib : Implementation} {stream : zlib.InflateStream}
    (init : zlib.inflateInit2 = some stream) {fuel : Nat} {strSrc strDest : Bytes} :
    inflate zlib fuel strSrc [] = some (true, strDest) ↔
      ∃ exit, exit ≠ .failed ∧
        drain zlib.inflate fuel stream (availableInput strSrc) [] = some (exit, strDest) := by
  simp only [inflate, init, Option.map_eq_some_iff, Prod.exists]
  constructor
  · rintro ⟨exit, dest, drained, result⟩
    cases exit with
    | failed => cases result
    | streamEnd | processed =>
        cases result
        exact ⟨_, by decide, drained⟩
  · rintro ⟨exit, returned, drained⟩
    refine ⟨exit, strDest, drained, ?_⟩
    cases exit with
    | failed => exact absurd rfl returned
    | streamEnd | processed => rfl

/-- What `inflate` returns with true is all of the decompression exactly if the last window has
room for what is still to come. -/
theorem inflatesWhole_iff {zlib : Implementation}
    {determined : zlib.InflateStream → Bytes → Bytes}
    (determines : Determines zlib.inflate .ok .streamEnd OUTPUT_BUF_SIZE determined)
    (strSrc : Bytes) :
    InflatesWhole zlib determined strSrc ↔ LastWindowFits zlib determined strSrc := by
  constructor
  · intro whole stream init last rest lastCall accepted
    rcases drain_lastCall determines lastCall accepted with ⟨handed, parts, drains⟩
    rcases drains [] with ⟨fuel, exit, returned, drained⟩
    have dest := whole fuel _ ((inflate_true_iff init).mpr ⟨exit, returned, drained⟩) stream init
    have front : determined stream (availableInput strSrc) <+: determined stream strSrc :=
      determines.monotone stream (List.take_prefix _ _)
    rw [List.nil_append] at dest
    rw [parts, ← dest, List.prefix_append_right_inj] at front
    have room := front.length_le.trans (determines.output_le last rest)
    refine ⟨room, ?_⟩
    rw [parts, ← (last_output_iff determines lastCall.ends accepted).mpr room, dest]
  · intro fits fuel strDest returned stream init
    rcases (inflate_true_iff init).mp returned with ⟨exit, succeeded, drained⟩
    rcases lastCall_of_drain drained succeeded with ⟨last, rest, lastCall, accepted⟩
    rcases fits stream init last rest lastCall accepted with ⟨room, same⟩
    rcases drain_lastCall determines lastCall accepted with ⟨handed, parts, drains⟩
    rcases drains [] with ⟨fuelAgain, exitAgain, _, drainedAgain⟩
    cases drain_unique drained drainedAgain
    rw [List.nil_append, (last_output_iff determines lastCall.ends accepted).mpr room, ← parts,
      same]

/-- The bits of eight of the longest matches, which stand five bits off the bytes. -/
def eightMatches : Bytes := [5, 163, 96, 20, 140, 130, 81, 48, 10, 70, 193, 40, 24]

/-- A block with the letter `a` and runs of it, which the client has not ended. -/
def runOfA (count : Nat) : Bytes := [74, 28] ++ (List.replicate count eightMatches).flatten

theorem inflatesWhole_iff_short :
    InflatesWhole FixedBlock.implementation FixedBlock.determined (runOfA 1) := by
  apply (inflatesWhole_iff FixedBlock.inflate_determines (runOfA 1)).mpr
  rintro stream init last rest lastCall accepted
  cases init
  have size : (FixedBlock.determined ⟨.start, []⟩ (runOfA 1)).length ≤ OUTPUT_BUF_SIZE := by
    rw [FixedBlock.determined, List.nil_append, FixedBlock.length_outputs]
    decide +kernel
  have available : availableInput (runOfA 1) = runOfA 1 := availableInput_of_lt (by decide)
  rw [available] at lastCall ⊢
  cases lastCall with
  | now _ => exact ⟨size, rfl⟩
  | later goesOn _ => exact absurd goesOn.2.2 (by decide +kernel)

/-- Of 8257 letters in 54 bytes 65 are left inside the stream. -/
theorem inflate_leaves_output :
    Determines FixedBlock.implementation.inflate .ok .streamEnd OUTPUT_BUF_SIZE
        FixedBlock.determined ∧
      ¬ InflatesWhole FixedBlock.implementation FixedBlock.determined (runOfA 4) := by
  refine ⟨FixedBlock.inflate_determines, ?_⟩
  intro whole
  have size : (FixedBlock.determined ⟨.start, []⟩ (runOfA 4)).length = 8257 := by
    rw [FixedBlock.determined, List.nil_append, FixedBlock.length_outputs]
    decide +kernel
  have available : availableInput (runOfA 4) = runOfA 4 := availableInput_of_lt (by decide)
  have drained := @drain_processed _ FixedBlock.implementation.inflate ⟨.start, []⟩ (runOfA 4)
    (by decide +kernel) (by decide +kernel) 0 []
  have window := FixedBlock.inflate_determines.output_le ⟨.start, []⟩ (runOfA 4)
  generalize (FixedBlock.implementation.inflate ⟨.start, []⟩ (runOfA 4) OUTPUT_BUF_SIZE).output =
    handed at drained window
  rw [List.nil_append, ← available] at drained
  have dest := whole 1 handed ((inflate_true_iff rfl).mpr ⟨.processed, by decide, drained⟩)
    ⟨.start, []⟩ rfl
  rw [← dest] at size
  have limit : OUTPUT_BUF_SIZE = 8192 := rfl
  omega

end MyBookSources.Zlib.ZlibUtil
