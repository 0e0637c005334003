import MyBookSources.Foundation.Execution
import MyBookSources.Net.BufferSpec

/-! # The buffer refines a byte queue

Runs of public calls on a pair of buffers, the second one being the partner of
`swap`. `Call.Effect` says what each call promises in terms of the readable
bytes; the promise holds in every state of every run whose size sums do not
wrap.
-/

namespace MyBookSources.Net.Buffer

inductive Call
  | append (data : Bytes)
  | prepend (data : Bytes)
  | retrieve (len : Nat)
  | retrieveUntil (stop : Nat)
  | retrieveAll
  | retrieveAsString (len : Nat)
  | unwrite (len : Nat)
  | ensureWritableBytes (len : Nat)
  | hasWritten (len : Nat)
  | shrink (reserve : Nat)
  | swap
  | readFd (platform : Platform) (result : ReadResult)
  deriving DecidableEq

inductive Reply
  | done
  | answer (accepted : Bool)
  | text (bytes : Bytes)
  | count (value : Int)
  deriving DecidableEq

/-- The buffer the calls go to and the argument of `swap`. -/
structure Pair where
  self : Buffer
  rhs : Buffer
  deriving DecidableEq

namespace Pair

def create (initialSize rhsInitialSize : Nat) : Pair :=
  ⟨Buffer.create initialSize, Buffer.create rhsInitialSize⟩

def perform (pair : Pair) : Call → Reply × Pair
  | .append data => (.done, { pair with self := pair.self.append data })
  | .prepend data =>
      (.answer (pair.self.prepend data).1, { pair with self := (pair.self.prepend data).2 })
  | .retrieve len =>
      (.answer (pair.self.retrieve len).1, { pair with self := (pair.self.retrieve len).2 })
  | .retrieveUntil stop =>
      (.answer (pair.self.retrieveUntil stop).1,
        { pair with self := (pair.self.retrieveUntil stop).2 })
  | .retrieveAll => (.done, { pair with self := pair.self.retrieveAll })
  | .retrieveAsString len =>
      (.text (pair.self.retrieveAsString len).1,
        { pair with self := (pair.self.retrieveAsString len).2 })
  | .unwrite len =>
      (.answer (pair.self.unwrite len).1, { pair with self := (pair.self.unwrite len).2 })
  | .ensureWritableBytes len =>
      (.answer true, { pair with self := pair.self.ensureWritableBytes len })
  | .hasWritten len =>
      (.answer (pair.self.hasWritten len).1,
        { pair with self := (pair.self.hasWritten len).2 })
  | .shrink reserve => (.done, { pair with self := pair.self.shrink reserve })
  | .swap => (.done, ⟨pair.rhs, pair.self⟩)
  | .readFd platform result =>
      (.count (pair.self.readFd platform result).1,
        { pair with self := (pair.self.readFd platform result).2 })

structure WellFormed (pair : Pair) : Prop where
  self : pair.self.WellFormed
  rhs : pair.rhs.WellFormed

end Pair

namespace Call

/-- The call changes the readable bytes to `readable` and leaves the partner
alone. -/
def Leaves (before : Pair) (after : Pair) (readable : Bytes) : Prop :=
  after.self.readable = readable ∧ after.rhs = before.rhs

/-- What each call does, told by the readable bytes. A refused call leaves the
whole pair as it was. -/
def Effect (before : Pair) (call : Call) (reply : Reply) (after : Pair) : Prop :=
  match call with
  | .append data =>
      reply = .done ∧ Leaves before after (before.self.readable ++ data)
  | .prepend data =>
      if data.length ≤ before.self.prependableBytes then
        reply = .answer true ∧ Leaves before after (data ++ before.self.readable)
      else reply = .answer false ∧ after = before
  | .retrieve len =>
      if len ≤ before.self.readable.length then
        reply = .answer true ∧ Leaves before after (before.self.readable.drop len)
      else reply = .answer false ∧ after = before
  | .retrieveUntil stop =>
      if before.self.readerIndex ≤ stop ∧ stop ≤ before.self.writerIndex then
        reply = .answer true ∧
          Leaves before after (before.self.readable.drop (stop - before.self.readerIndex))
      else reply = .answer false ∧ after = before
  | .retrieveAll => reply = .done ∧ Leaves before after []
  | .retrieveAsString len =>
      if len ≤ before.self.readable.length then
        reply = .text (before.self.readable.take len) ∧
          Leaves before after (before.self.readable.drop len)
      else reply = .text [] ∧ after = before
  | .unwrite len =>
      if len ≤ before.self.readable.length then
        reply = .answer true ∧
          Leaves before after
            (before.self.readable.take (before.self.readable.length - len))
      else reply = .answer false ∧ after = before
  | .ensureWritableBytes len =>
      reply = .answer true ∧ Leaves before after before.self.readable ∧
        len ≤ after.self.writableBytes
  | .hasWritten len =>
      if len ≤ before.self.writableBytes then
        reply = .answer true ∧
          Leaves before after (before.self.readable ++
            before.self.buffer.slice before.self.writerIndex (before.self.writerIndex + len))
      else reply = .answer false ∧ after = before
  | .shrink _ => reply = .done ∧ Leaves before after before.self.readable
  | .swap => reply = .done ∧ after = ⟨before.rhs, before.self⟩
  | .readFd _ result =>
      reply = .count result.count ∧
        match result with
        | .received data => Leaves before after (before.self.readable ++ data)
        | .endOfStream => after = before
        | .failed _ => after = before

/-- What a caller can ask for: a request is a `size_t` value, and the kernel delivers at most
what it was given room for. -/
def Given (pair : Pair) : Call → Prop
  | .append data => data.length < 2 ^ 64
  | .ensureWritableBytes len => len < 2 ^ 64
  | .readFd platform (.received data) =>
      0 < data.length ∧ data.length ≤ pair.self.readFdCapacity platform
  | _ => True

/-- Arguments are `size_t` values, the kernel delivers at most what it was given
room for, and the readable bytes stay below `2 ^ 31`. -/
def Admissible (pair : Pair) (call : Call) : Prop :=
  pair.self.readable.length < 2 ^ 31 ∧
    match call with
    | .append data => data.length < 2 ^ 64
    | .ensureWritableBytes len => len < 2 ^ 64
    | .readFd platform (.received data) =>
        0 < data.length ∧ data.length ≤ pair.self.readFdCapacity platform
    | _ => True

/-- No `size_t` sum that the call forms from its request wraps. -/
def Unwrapped (pair : Pair) (call : Call) : Prop :=
  match call with
  | .append data => pair.self.Room data.length
  | .ensureWritableBytes len => pair.self.Room len
  | .readFd _ (.received _) => pair.self.buffer.length + extrabufSize < 2 ^ 64
  | _ => True

end Call

open Call

theorem retrieveUntil_effect {buf : Buffer} {stop : Nat} (wellFormed : buf.WellFormed)
    (after : buf.readerIndex ≤ stop) (before : stop ≤ buf.writerIndex) :
    (buf.retrieveUntil stop).1 = true ∧ (buf.retrieveUntil stop).2.WellFormed ∧
      (buf.retrieveUntil stop).2.readable = buf.readable.drop (stop - buf.readerIndex) := by
  have count := wellFormed.readableBytes_eq
  have writerBound := wellFormed.writer_le_size
  have small := wellFormed.size_lt
  have distance : sizeSub stop buf.readerIndex = stop - buf.readerIndex :=
    sizeSub_of_le after (by omega)
  have fits : stop - buf.readerIndex ≤ buf.readableBytes := by omega
  have taken := retrieve_spec wellFormed fits
  rw [retrieveUntil, if_neg (by omega), if_neg (by omega), distance]
  exact ⟨rfl, taken.2⟩

theorem retrieve_wellFormed {buf : Buffer} (wellFormed : buf.WellFormed) (len : Nat) :
    (buf.retrieve len).2.WellFormed := by
  rcases Nat.lt_or_ge buf.readableBytes len with long | fits
  · rw [retrieve_refused long]
    exact wellFormed
  · exact (retrieve_spec wellFormed fits).2.1

/-- A call keeps both buffers well formed, however many bytes are readable. -/
theorem perform_wellFormed {pair : Pair} {call : Call} (wellFormed : pair.WellFormed)
    (given : call.Given pair) (unwrapped : call.Unwrapped pair) :
    (pair.perform call).2.WellFormed := by
  rcases wellFormed with ⟨selfWf, rhsWf⟩
  cases call with
  | append data => exact ⟨(append_spec selfWf unwrapped).1, rhsWf⟩
  | prepend data =>
      refine ⟨?_, rhsWf⟩
      rcases Nat.lt_or_ge pair.self.prependableBytes data.length with long | fits
      · simp only [Pair.perform, prepend_refused long]
        exact selfWf
      · exact (prepend_spec selfWf fits).2.1
  | retrieve len => exact ⟨retrieve_wellFormed selfWf len, rhsWf⟩
  | retrieveUntil stop =>
      refine ⟨?_, rhsWf⟩
      simp only [Pair.perform, retrieveUntil]
      split
      · exact selfWf
      · split
        · exact selfWf
        · exact retrieve_wellFormed selfWf _
  | retrieveAll => exact ⟨retrieveAll_wellFormed selfWf, rhsWf⟩
  | retrieveAsString len =>
      refine ⟨?_, rhsWf⟩
      simp only [Pair.perform, retrieveAsString]
      split
      · exact selfWf
      · exact retrieve_wellFormed selfWf len
  | unwrite len =>
      refine ⟨?_, rhsWf⟩
      rcases Nat.lt_or_ge pair.self.readableBytes len with long | fits
      · simp only [Pair.perform, unwrite_refused long]
        exact selfWf
      · exact (unwrite_spec selfWf fits).2.1
  | ensureWritableBytes len => exact ⟨(ensureWritableBytes_spec selfWf unwrapped).1, rhsWf⟩
  | hasWritten len =>
      refine ⟨?_, rhsWf⟩
      rcases Nat.lt_or_ge pair.self.writableBytes len with long | fits
      · simp only [Pair.perform, hasWritten_refused long]
        exact selfWf
      · exact (hasWritten_spec selfWf fits).2.1
  | shrink reserve => exact ⟨shrink_wellFormed selfWf, rhsWf⟩
  | swap => exact ⟨rhsWf, selfWf⟩
  | readFd platform result =>
      cases result with
      | received data =>
          have receivable : pair.self.Receivable platform (.received data) :=
            ⟨given.1, given.2, unwrapped⟩
          exact ⟨(readFd_received_spec selfWf receivable).1, rhsWf⟩
      | endOfStream => exact ⟨selfWf, rhsWf⟩
      | failed errno => exact ⟨selfWf, rhsWf⟩

theorem perform_effect {pair : Pair} {call : Call} (wellFormed : pair.WellFormed)
    (admissible : call.Admissible pair) (unwrapped : call.Unwrapped pair) :
    call.Effect pair (pair.perform call).1 (pair.perform call).2 := by
  rcases wellFormed with ⟨selfWf, _⟩
  rcases admissible with ⟨small, admissible⟩
  have length := selfWf.length_readable
  cases call with
  | append data => exact ⟨rfl, (append_spec selfWf unwrapped).2, rfl⟩
  | prepend data =>
      by_cases room : data.length ≤ pair.self.prependableBytes
      · rcases prepend_spec selfWf room with ⟨answer, _, readable⟩
        rw [Effect, if_pos room]
        exact ⟨congrArg Reply.answer answer, readable, rfl⟩
      · have refused := prepend_refused (Nat.lt_of_not_le room)
        simp only [Pair.perform, refused, Effect, if_neg room]
        exact ⟨trivial, trivial⟩
  | retrieve len =>
      by_cases room : len ≤ pair.self.readable.length
      · have fits : len ≤ pair.self.readableBytes := by omega
        rcases retrieve_spec selfWf fits with ⟨answer, _, readable⟩
        rw [Effect, if_pos room]
        exact ⟨congrArg Reply.answer answer, readable, rfl⟩
      · have long : pair.self.readableBytes < len := by omega
        have refused := retrieve_refused long
        simp only [Pair.perform, refused, Effect, if_neg room]
        exact ⟨trivial, trivial⟩
  | retrieveUntil stop =>
      by_cases inside : pair.self.readerIndex ≤ stop ∧ stop ≤ pair.self.writerIndex
      · rcases retrieveUntil_effect selfWf inside.1 inside.2 with ⟨answer, _, readable⟩
        rw [Effect, if_pos inside]
        exact ⟨congrArg Reply.answer answer, readable, rfl⟩
      · have refused : pair.self.retrieveUntil stop = (false, pair.self) := by
          rw [retrieveUntil]
          split
          · rfl
          · rw [if_pos (by omega)]
        simp only [Pair.perform, refused, Effect, if_neg inside]
        exact ⟨trivial, trivial⟩
  | retrieveAll => exact ⟨rfl, readable_retrieveAll _, rfl⟩
  | retrieveAsString len =>
      by_cases room : len ≤ pair.self.readable.length
      · have fits : len ≤ pair.self.readableBytes := by omega
        rcases retrieve_spec selfWf fits with ⟨_, _, readable⟩
        have taken : pair.self.retrieveAsString len =
            (pair.self.readable.take len, (pair.self.retrieve len).2) := by
          rw [retrieveAsString, if_neg (by omega)]
        simp only [Pair.perform, taken, Effect, if_pos room]
        exact ⟨trivial, readable, rfl⟩
      · have long : pair.self.readableBytes < len := by omega
        have refused := retrieveAsString_refused long
        simp only [Pair.perform, refused, Effect, if_neg room]
        exact ⟨trivial, trivial⟩
  | unwrite len =>
      by_cases room : len ≤ pair.self.readable.length
      · have fits : len ≤ pair.self.readableBytes := by omega
        rcases unwrite_spec selfWf fits with ⟨answer, _, readable⟩
        rw [Effect, if_pos room]
        exact ⟨congrArg Reply.answer answer, readable, rfl⟩
      · have long : pair.self.readableBytes < len := by omega
        have refused := unwrite_refused long
        simp only [Pair.perform, refused, Effect, if_neg room]
        exact ⟨trivial, trivial⟩
  | ensureWritableBytes len =>
      rcases ensureWritableBytes_spec selfWf unwrapped with ⟨_, readable, enough⟩
      exact ⟨rfl, ⟨readable, rfl⟩, enough⟩
  | hasWritten len =>
      by_cases room : len ≤ pair.self.writableBytes
      · rcases hasWritten_spec selfWf room with ⟨answer, _, readable⟩
        rw [Effect, if_pos room]
        exact ⟨congrArg Reply.answer answer, readable, rfl⟩
      · have refused := hasWritten_refused (Nat.lt_of_not_le room)
        simp only [Pair.perform, refused, Effect, if_neg room]
        exact ⟨trivial, trivial⟩
  | shrink reserve => exact ⟨rfl, (shrink_spec selfWf small).2, rfl⟩
  | swap => exact ⟨rfl, rfl⟩
  | readFd platform result =>
      refine ⟨congrArg Reply.count (readFd_count _ _ _), ?_⟩
      cases result with
      | received data =>
          have receivable : pair.self.Receivable platform (.received data) :=
            ⟨admissible.1, admissible.2, unwrapped⟩
          exact ⟨(readFd_received_spec selfWf receivable).2, rfl⟩
      | endOfStream => rfl
      | failed errno => rfl

/-- One call on well-formed buffers keeps them well formed and has its effect. -/
theorem perform_spec {pair : Pair} {call : Call} (wellFormed : pair.WellFormed)
    (admissible : call.Admissible pair) (unwrapped : call.Unwrapped pair) :
    (pair.perform call).2.WellFormed ∧
      call.Effect pair (pair.perform call).1 (pair.perform call).2 := by
  constructor
  · refine perform_wellFormed wellFormed ?_ unwrapped
    have given := admissible.2
    cases call <;> exact given
  · exact perform_effect wellFormed admissible unwrapped

def machine : Machine Pair Call where
  Step before call after := call.Admissible before ∧ after = (before.perform call).2

/-- The index order holds and the next admissible call, whatever it is, has its
effect. -/
def QueueLaw (pair : Pair) : Prop :=
  pair.WellFormed ∧ ∀ call : Call, call.Admissible pair →
    call.Effect pair (pair.perform call).1 (pair.perform call).2

theorem create_pair_wellFormed {initialSize rhsInitialSize : Nat}
    (selfFits : kCheapPrepend + initialSize < 2 ^ 64)
    (rhsFits : kCheapPrepend + rhsInitialSize < 2 ^ 64) :
    (Pair.create initialSize rhsInitialSize).WellFormed :=
  ⟨create_wellFormed selfFits, create_wellFormed rhsFits⟩

/-- In every run whose size sums do not wrap, the index order holds in every
state reached, and so does the effect of every call made there that does not
wrap either. -/
theorem unwrapped_run_refines_queue (initialSize rhsInitialSize : Nat)
    (selfFits : kCheapPrepend + initialSize < 2 ^ 64)
    (rhsFits : kCheapPrepend + rhsInitialSize < 2 ^ 64)
    (calls : List Call) (pair : Pair)
    (run : (machine.restrict fun before call => call.Unwrapped before).Transitions
      (Pair.create initialSize rhsInitialSize) calls pair) :
    pair.WellFormed ∧ ∀ call : Call, call.Admissible pair → call.Unwrapped pair →
      (pair.perform call).2.WellFormed ∧
        call.Effect pair (pair.perform call).1 (pair.perform call).2 := by
  have wellFormed : pair.WellFormed := by
    have initial := create_pair_wellFormed selfFits rhsFits
    refine run.invariant ?_ initial
    rintro before call after wellFormed ⟨⟨admissible, rfl⟩, unwrapped⟩
    exact (perform_spec wellFormed admissible unwrapped).1
  exact ⟨wellFormed, fun call admissible unwrapped =>
    perform_spec wellFormed admissible unwrapped⟩

/-- Appending two bytes to a default buffer is an unwrapped run. -/
theorem unwrapped_run_refines_queue_append :
    (kCheapPrepend + kInitialSize < 2 ^ 64) ∧
      ((Pair.create kInitialSize 0).perform (.append [1, 2])).2.WellFormed := by
  have empty : (Pair.create kInitialSize 0).self.readable = [] := readable_create _
  have admissible : (Call.append [1, 2]).Admissible (Pair.create kInitialSize 0) :=
    ⟨by simp [empty], by simp⟩
  have unwrapped : (Call.append [1, 2]).Unwrapped (Pair.create kInitialSize 0) :=
    ⟨by decide, by decide⟩
  exact ⟨by decide, (unwrapped_run_refines_queue kInitialSize 0 (by decide) (by decide) _ _
    (.snoc (.nil _) ⟨⟨admissible, rfl⟩, unwrapped⟩)).1⟩

/-- Twelve bytes are appended and then `2 ^ 64 - 15` more are asked for: the
vector is resized to five bytes under a writer index of twenty. -/
theorem wrapped_request_breaks_queue :
    ¬ ∀ initialSize < 2 ^ 64, ∀ rhsInitialSize < 2 ^ 64, ∀ calls pair,
      machine.Transitions (Pair.create initialSize rhsInitialSize) calls pair →
        QueueLaw pair := by
  intro law
  have room : (create kInitialSize).Room (List.replicate 12 (0 : Byte)).length := by decide
  have filledSpec := append_spec (create_wellFormed (by decide)) room
  have short : ((create kInitialSize).append (List.replicate 12 0)).writableBytes = 1012 := by
    decide +kernel
  have front : ((create kInitialSize).append (List.replicate 12 0)).readerIndex = 8 := by
    decide +kernel
  have writer : ((create kInitialSize).append (List.replicate 12 0)).writerIndex = 20 := by
    decide +kernel
  have first : machine.Step (Pair.create kInitialSize 0) (.append (List.replicate 12 0))
      ⟨(create kInitialSize).append (List.replicate 12 0), create 0⟩ := by
    have empty : (Pair.create kInitialSize 0).self.readable = [] := readable_create _
    exact ⟨⟨by simp [empty], by simp⟩, rfl⟩
  generalize (create kInitialSize).append (List.replicate 12 0) = filled at *
  have second : machine.Step ⟨filled, create 0⟩ (.ensureWritableBytes (2 ^ 64 - 15))
      ⟨filled.ensureWritableBytes (2 ^ 64 - 15), create 0⟩ := by
    refine ⟨⟨?_, by simp⟩, rfl⟩
    change filled.readable.length < 2 ^ 31
    rw [filledSpec.2]
    simp
  have kept := (law kInitialSize (by decide) 0 (by decide) _ _
    (.snoc (.snoc (.nil _) first) second)).1.self
  have size : filled.writerIndex + (2 ^ 64 - 15) < 2 ^ 64 :=
    (ensureWritableBytes_wellFormed_iff filledSpec.1 (by decide) (by omega) (by
      simp only [sizeAdd, prependableBytes, short, front, kCheapPrepend]
      decide)).mp kept
  omega

end MyBookSources.Net.Buffer
