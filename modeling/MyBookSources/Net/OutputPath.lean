import MyBookSources.Foundation.Execution
import MyBookSources.Net.BufferSpec
import MyBookSources.Net.TcpConnection

/-! # The output path of a connection

`sendInLoop` writes to the socket while nothing is queued and queues otherwise;
`handleWrite` drains the queue. Over any sequence of the two, what the kernel has
accepted followed by what is queued is what was sent.
-/

namespace MyBookSources.Net.OutputPath

/-- One call of the output path with the answers of the kernel; `closing` answers
the `epoll_ctl` call of `handleClose`. -/
inductive Step
  | sendInLoop (message : Bytes) (write : WriteResult) (ctl : Bool)
  | handleWrite (write : WriteResult) (ctl closing : Bool)

structure Sender where
  endpoint : Endpoint
  messages : List Bytes

/-- `handleWrite` together with the `handleClose` it may end in. -/
def closeAfter (outcome : Outcome) (closing : Bool) : Endpoint :=
  if outcome.calls = [] then outcome.endpoint
  else (outcome.endpoint.handleClose closing).endpoint

def Sender.perform (sender : Sender) : Step → Sender
  | .sendInLoop message write ctl =>
      ⟨sender.endpoint.sendInLoop message write ctl, sender.messages ++ [message]⟩
  | .handleWrite write ctl closing =>
      ⟨closeAfter (sender.endpoint.handleWrite write ctl) closing, sender.messages⟩

/-- The connection is not disconnected, messages and queue are short, and a write
hands back a count within its request or an error; in `sendInLoop` not one of the
errors that mean that the peer is gone. -/
def Admissible (sender : Sender) : Step → Prop
  | .sendInLoop message write _ =>
      sender.endpoint.state ≠ .kDisconnected ∧ message.length < 2 ^ 31 ∧
        sender.endpoint.outputBuffer.readable.length < 2 ^ 31 ∧
        write.Within message.length ∧ ¬ write.Fatal
  | .handleWrite write _ _ =>
      sender.endpoint.state ≠ .kDisconnected ∧
        sender.endpoint.outputBuffer.readable.length < 2 ^ 31 ∧
        write.Within sender.endpoint.outputBuffer.readableBytes

def machine : Machine Sender Step :=
  (Machine.ofFunction Sender.perform).restrict Admissible

structure Unsent (endpoint : Endpoint) : Prop where
  buffer : endpoint.outputBuffer = Buffer.create Buffer.kInitialSize
  quiet : endpoint.channel.isWriting = false
  accepted : endpoint.accepted = []

/-- Nothing is lost, duplicated or reordered. -/
def Conserves (sender : Sender) : Prop :=
  sender.endpoint.accepted ++ sender.endpoint.outputBuffer.readable = sender.messages.flatten

/-- Write interest stands for queued output. -/
def WritesQueued (endpoint : Endpoint) : Prop :=
  endpoint.channel.isWriting = true ↔ endpoint.outputBuffer.readable ≠ []

/-- The invariant of the output path. The bound on the vector keeps its index sums
from wrapping. -/
structure Sound (sender : Sender) : Prop where
  wellFormed : sender.endpoint.outputBuffer.WellFormed
  bounded : sender.endpoint.outputBuffer.buffer.length ≤ 2 ^ 34
  conserves : Conserves sender
  interest : sender.endpoint.state ≠ .kDisconnected → WritesQueued sender.endpoint

section Sending

variable (endpoint : Endpoint)

@[simp] theorem ensureWriting_isWriting (ctl : Bool) :
    (endpoint.ensureWriting ctl).channel.isWriting = true := by
  unfold Endpoint.ensureWriting
  split
  · assumption
  · simp [Endpoint.enableWriting]

@[simp] theorem ensureWriting_outputBuffer (ctl : Bool) :
    (endpoint.ensureWriting ctl).outputBuffer = endpoint.outputBuffer := by
  unfold Endpoint.ensureWriting
  split <;> rfl

@[simp] theorem ensureWriting_accepted (ctl : Bool) :
    (endpoint.ensureWriting ctl).accepted = endpoint.accepted := by
  unfold Endpoint.ensureWriting
  split <;> rfl

variable {endpoint} {data : Bytes}

private theorem readable_eq_nil_iff (wellFormed : endpoint.outputBuffer.WellFormed) :
    endpoint.outputBuffer.readable = [] ↔ endpoint.outputBuffer.readableBytes = 0 := by
  rw [← wellFormed.length_readable, List.length_eq_zero_iff]

private theorem room_of_bounded (wellFormed : endpoint.outputBuffer.WellFormed)
    (bounded : endpoint.outputBuffer.buffer.length ≤ 2 ^ 34) (small : data.length < 2 ^ 31) :
    endpoint.outputBuffer.Room data.length := by
  have writerBound := wellFormed.writer_le_size
  constructor
  · omega
  · have cheap : Buffer.kCheapPrepend = 8 := rfl
    omega

/-- Queueing appends what is left of the message and keeps write interest in step
with the queue. -/
theorem queueOutput_spec (wellFormed : endpoint.outputBuffer.WellFormed)
    (bounded : endpoint.outputBuffer.buffer.length ≤ 2 ^ 34)
    (interest : WritesQueued endpoint) (small : data.length < 2 ^ 31)
    (queue : endpoint.outputBuffer.readable.length < 2 ^ 31) {count : Nat}
    (within : count ≤ data.length) (ctl : Bool) :
    let queued := endpoint.queueOutput data ⟨count, data.length - count, false⟩ ctl
    queued.outputBuffer.WellFormed ∧ queued.outputBuffer.buffer.length ≤ 2 ^ 34 ∧
      queued.outputBuffer.readable = endpoint.outputBuffer.readable ++ data.drop count ∧
      queued.accepted = endpoint.accepted ∧ WritesQueued queued := by
  intro queued
  have notMore : ¬ data.length < data.length - count := by omega
  by_cases whole : count = data.length
  · have kept : queued = endpoint := by
      simp [queued, Endpoint.queueOutput, whole]
    rw [kept, whole]
    exact ⟨wellFormed, bounded, by simp, rfl, interest⟩
  · have some : 0 < data.length - count := by omega
    have rest : (data.drop count).take (data.length - count) = data.drop count := by simp
    have restLength : (data.drop count).length = data.length - count := List.length_drop
    have restSmall : (data.drop count).length < 2 ^ 31 := by omega
    have room := room_of_bounded wellFormed bounded restSmall
    rcases Buffer.append_spec wellFormed room with ⟨appendedWf, appended⟩
    have size := Buffer.length_append_le wellFormed room
    have appendedBound :
        (endpoint.outputBuffer.append (data.drop count)).buffer.length ≤ 2 ^ 34 := by
      have cheap : Buffer.kCheapPrepend = 8 := rfl
      omega
    rcases endpoint.warnHighWater_eq (data.length - count) with ⟨functors, warned⟩
    have unfolded : queued = Endpoint.ensureWriting
        { endpoint with
          outputBuffer := endpoint.outputBuffer.append (data.drop count)
          pendingFunctors := functors } ctl := by
      simp only [queued, Endpoint.queueOutput, notMore, some, rest, warned, if_false, and_self,
        if_true]
    have buffer : queued.outputBuffer = endpoint.outputBuffer.append (data.drop count) := by
      rw [unfolded, ensureWriting_outputBuffer]
    have accepted : queued.accepted = endpoint.accepted := by
      rw [unfolded, ensureWriting_accepted]
    have writing : queued.channel.isWriting = true := by
      rw [unfolded, ensureWriting_isWriting]
    rw [buffer, accepted, WritesQueued, buffer]
    refine ⟨appendedWf, appendedBound, appended, rfl, ?_⟩
    have nonempty : data.drop count ≠ [] := by
      intro empty
      rw [empty, List.length_nil] at restLength
      omega
    simp [writing, appended, nonempty]

theorem writeDirectly_spec (small : data.length < 2 ^ 31) {write : WriteResult}
    (within : write.Within data.length) (usable : ¬ write.Fatal) :
    ∃ count ≤ data.length, ∃ functors,
      endpoint.writeDirectly data write =
        ({ endpoint with
            accepted := endpoint.accepted ++ data.take count, pendingFunctors := functors },
          ⟨count, data.length - count, false⟩) := by
  cases write with
  | accepted count =>
      have bound : count ≤ data.length := by
        simp only [WriteResult.Within, int32_of_lt small] at within
        omega
      refine ⟨count, bound, ?_⟩
      simp only [Endpoint.writeDirectly, sizeSub_of_le bound (by omega)]
      split
      · rcases Endpoint.postWriteComplete_eq
          { endpoint with accepted := endpoint.accepted ++ data.take count } with
          ⟨functors, posted⟩
        exact ⟨functors, by rw [posted]⟩
      · exact ⟨_, rfl⟩
  | failed errno =>
      refine ⟨0, Nat.zero_le _, endpoint.pendingFunctors, ?_⟩
      cases errno <;> simp_all [Endpoint.writeDirectly, WriteResult.Fatal]

/-- `sendInLoop` on a connection that is not disconnected: what was accepted and
queued grows by the message. -/
theorem sendInLoop_spec (wellFormed : endpoint.outputBuffer.WellFormed)
    (bounded : endpoint.outputBuffer.buffer.length ≤ 2 ^ 34)
    (interest : WritesQueued endpoint) (alive : endpoint.state ≠ .kDisconnected)
    (small : data.length < 2 ^ 31)
    (queue : endpoint.outputBuffer.readable.length < 2 ^ 31) {write : WriteResult}
    (within : write.Within data.length) (usable : ¬ write.Fatal) (ctl : Bool) :
    let sent := endpoint.sendInLoop data write ctl
    sent.outputBuffer.WellFormed ∧ sent.outputBuffer.buffer.length ≤ 2 ^ 34 ∧
      sent.accepted ++ sent.outputBuffer.readable =
        endpoint.accepted ++ endpoint.outputBuffer.readable ++ data ∧
      WritesQueued sent := by
  intro sent
  by_cases direct :
      endpoint.channel.isWriting = false ∧ endpoint.outputBuffer.readableBytes = 0
  · rcases @writeDirectly_spec endpoint data small write within usable with
      ⟨count, bound, functors, tried⟩
    have unfolded : sent = Endpoint.queueOutput
        { endpoint with
          accepted := endpoint.accepted ++ data.take count, pendingFunctors := functors }
        data ⟨count, data.length - count, false⟩ ctl := by
      simp only [sent, Endpoint.sendInLoop, alive, direct, tried, if_false, and_self, if_true]
    have empty : endpoint.outputBuffer.readable = [] :=
      (readable_eq_nil_iff wellFormed).mpr direct.2
    rcases @queueOutput_spec
        { endpoint with
          accepted := endpoint.accepted ++ data.take count, pendingFunctors := functors }
        data wellFormed bounded interest small queue count bound ctl with
      ⟨sentWf, sentBound, readable, accepted, sentInterest⟩
    rw [unfolded]
    refine ⟨sentWf, sentBound, ?_, sentInterest⟩
    rw [readable, accepted]
    simp [empty]
  · have unfolded : sent = endpoint.queueOutput data ⟨0, data.length - 0, false⟩ ctl := by
      simp only [sent, Endpoint.sendInLoop, alive, direct, if_false, Nat.sub_zero]
    rcases queueOutput_spec wellFormed bounded interest small queue (Nat.zero_le _) ctl with
      ⟨sentWf, sentBound, readable, accepted, sentInterest⟩
    rw [unfolded]
    refine ⟨sentWf, sentBound, ?_, sentInterest⟩
    rw [readable, accepted]
    simp

/-- `handleWrite` hands the front of the queue to the kernel and drops write interest
with the last byte; a write that fails or accepts nothing changes nothing before the
close it leads to. -/
theorem handleWrite_spec (wellFormed : endpoint.outputBuffer.WellFormed)
    (interest : WritesQueued endpoint)
    (queue : endpoint.outputBuffer.readable.length < 2 ^ 31) {write : WriteResult}
    (within : write.Within endpoint.outputBuffer.readableBytes) (ctl : Bool) :
    let outcome := endpoint.handleWrite write ctl
    outcome.endpoint.outputBuffer.WellFormed ∧
      outcome.endpoint.outputBuffer.buffer = endpoint.outputBuffer.buffer ∧
      outcome.endpoint.accepted ++ outcome.endpoint.outputBuffer.readable =
        endpoint.accepted ++ endpoint.outputBuffer.readable ∧
      WritesQueued outcome.endpoint := by
  intro outcome
  cases writing : endpoint.channel.isWriting with
  | false =>
      have unfolded : outcome = ⟨endpoint, [], []⟩ := by
        simp [outcome, Endpoint.handleWrite, writing]
      rw [unfolded]
      exact ⟨wellFormed, rfl, rfl, interest⟩
  | true =>
      cases write with
      | failed errno =>
          have unfolded : outcome = ⟨endpoint, [], [.handleClose]⟩ := by
            simp [outcome, Endpoint.handleWrite, writing]
          rw [unfolded]
          exact ⟨wellFormed, rfl, rfl, interest⟩
      | accepted count =>
          by_cases nothing : count = 0
          · have unfolded : outcome = ⟨endpoint, [], [.handleClose]⟩ := by
              simp [outcome, Endpoint.handleWrite, writing, nothing]
            rw [unfolded]
            exact ⟨wellFormed, rfl, rfl, interest⟩
          · have bound : count ≤ endpoint.outputBuffer.readableBytes := by
              rw [wellFormed.length_readable] at queue
              simp only [WriteResult.Within, int32_of_lt queue] at within
              omega
            rcases Buffer.retrieve_spec wellFormed bound with ⟨-, retrievedWf, retrieved⟩
            have size := Buffer.retrieve_size endpoint.outputBuffer count
            by_cases drained : (endpoint.outputBuffer.retrieve count).2.readableBytes = 0
            · have unfolded : outcome =
                  ⟨(endpoint.retrieveOutput count).outputDrained ctl, [], []⟩ := by
                simp [outcome, Endpoint.handleWrite, writing, nothing, drained,
                  Endpoint.retrieveOutput]
              have empty : (endpoint.outputBuffer.retrieve count).2.readable = [] := by
                rw [← List.length_eq_zero_iff, retrievedWf.length_readable]
                exact drained
              rcases (endpoint.retrieveOutput count).outputDrained_eq ctl with
                ⟨functors, shut, drainedEq⟩
              rw [unfolded, drainedEq]
              simp only [WritesQueued, Endpoint.disableWriting, Endpoint.update_outputBuffer,
                Endpoint.update_accepted, Endpoint.update_isWriting, Endpoint.retrieveOutput]
              refine ⟨retrievedWf, size, ?_, by simp [empty]⟩
              rw [retrieved, List.append_assoc, List.take_append_drop]
            · have unfolded : outcome = ⟨endpoint.retrieveOutput count, [], []⟩ := by
                simp [outcome, Endpoint.handleWrite, writing, nothing, drained,
                  Endpoint.retrieveOutput]
              have nonempty : (endpoint.outputBuffer.retrieve count).2.readable ≠ [] := by
                rw [ne_eq, ← List.length_eq_zero_iff, retrievedWf.length_readable]
                exact drained
              rw [unfolded]
              simp only [WritesQueued, Endpoint.retrieveOutput]
              refine ⟨retrievedWf, size, ?_, by simp [writing, nonempty]⟩
              rw [retrieved, List.append_assoc, List.take_append_drop]

end Sending

theorem handleClose_state (endpoint : Endpoint) (ctl : Bool) :
    (endpoint.handleClose ctl).endpoint.state = .kDisconnected := by
  unfold Endpoint.handleClose
  split
  · assumption
  · rfl

theorem handleClose_output (endpoint : Endpoint) (ctl : Bool) :
    (endpoint.handleClose ctl).endpoint.outputBuffer = endpoint.outputBuffer ∧
      (endpoint.handleClose ctl).endpoint.accepted = endpoint.accepted := by
  unfold Endpoint.handleClose
  split
  · exact ⟨rfl, rfl⟩
  · exact ⟨rfl, rfl⟩

/-- One step keeps the output path sound. -/
theorem perform_sound {sender : Sender} {step : Step} (sound : Sound sender)
    (admissible : Admissible sender step) : Sound (sender.perform step) := by
  rcases sound with ⟨wellFormed, bounded, conserves, interest⟩
  cases step with
  | sendInLoop message write ctl =>
      rcases admissible with ⟨alive, small, queue, within, usable⟩
      rcases sendInLoop_spec wellFormed bounded (interest alive) alive small queue within usable
        ctl with
        ⟨sentWf, sentBound, sent, sentInterest⟩
      refine ⟨sentWf, sentBound, ?_, fun _ => sentInterest⟩
      simp only [Conserves, Sender.perform, List.flatten_concat]
      rw [sent, conserves]
  | handleWrite write ctl closing =>
      rcases admissible with ⟨alive, queue, within⟩
      rcases handleWrite_spec wellFormed (interest alive) queue within ctl with
        ⟨writtenWf, size, written, writtenInterest⟩
      have conserved : Conserves ⟨(sender.endpoint.handleWrite write ctl).endpoint,
          sender.messages⟩ := by
        rw [Conserves, written, conserves]
      simp only [Sender.perform, closeAfter]
      split
      · exact ⟨writtenWf, by rw [size]; exact bounded, conserved, fun _ => writtenInterest⟩
      · rcases handleClose_output (sender.endpoint.handleWrite write ctl).endpoint closing with
          ⟨buffer, accepted⟩
        refine ⟨by rw [buffer]; exact writtenWf, by rw [buffer, size]; exact bounded, ?_, ?_⟩
        · rw [Conserves, buffer, accepted]
          exact conserved
        · intro alive
          exact absurd (handleClose_state _ closing) alive

theorem sound_of_unsent {endpoint : Endpoint} (unsent : Unsent endpoint) :
    Sound ⟨endpoint, []⟩ := by
  have wellFormed : (Buffer.create Buffer.kInitialSize).WellFormed :=
    Buffer.create_wellFormed (by decide)
  have empty : (Buffer.create Buffer.kInitialSize).readable = [] := Buffer.readable_create _
  refine ⟨by rw [unsent.buffer]; exact wellFormed, ?_, ?_, fun _ => ?_⟩
  · rw [unsent.buffer]
    simp only [Buffer.create, List.length_replicate]
    decide
  · simp [Conserves, unsent.accepted, unsent.buffer, empty]
  · simp [WritesQueued, unsent.quiet, unsent.buffer, empty]

/-- After any sequence of `sendInLoop` and `handleWrite` steps, the bytes the kernel
accepted followed by the queued ones are the messages in call order, and until the
connection is disconnected write interest stands for a queue that is not empty. -/
theorem sent_then_queued_is_messages {endpoint : Endpoint} (unsent : Unsent endpoint)
    {steps : List Step} {sender : Sender}
    (run : machine.Transitions ⟨endpoint, []⟩ steps sender) :
    Conserves sender ∧
      (sender.endpoint.state ≠ .kDisconnected → WritesQueued sender.endpoint) := by
  have sound : Sound sender :=
    run.invariant (fun before step after holds taken => by
      rcases taken with ⟨performed, admissible⟩
      rw [performed]
      exact perform_sound holds admissible) (sound_of_unsent unsent)
  exact ⟨sound.conserves, sound.interest⟩

/-- A first write that takes one byte of three, and a second that takes the rest. -/
theorem sent_then_queued_is_messages_partial :
    Conserves (Sender.perform (Sender.perform
      ⟨(Endpoint.create 1 5 .empty true true).setState .kConnected, []⟩
      (.sendInLoop [1, 2, 3] (.accepted 1) true)) (.handleWrite (.accepted 2) true true)) := by
  have first : Admissible ⟨(Endpoint.create 1 5 .empty true true).setState .kConnected, []⟩
      (.sendInLoop [1, 2, 3] (.accepted 1) true) := by
    refine ⟨by decide, by decide, by decide +kernel, ?_, fun fatal => fatal⟩
    change ((1 : Nat) : Int) ≤ int32 3
    decide
  have second : Admissible (Sender.perform
      ⟨(Endpoint.create 1 5 .empty true true).setState .kConnected, []⟩
      (.sendInLoop [1, 2, 3] (.accepted 1) true)) (.handleWrite (.accepted 2) true true) := by
    refine ⟨by decide +kernel, by decide +kernel, ?_⟩
    change ((2 : Nat) : Int) ≤ int32 _
    decide +kernel
  have unsent : Unsent ((Endpoint.create 1 5 .empty true true).setState .kConnected) :=
    ⟨rfl, by decide, rfl⟩
  exact (sent_then_queued_is_messages unsent
    (.snoc (.snoc (.nil _) ⟨rfl, first⟩) ⟨rfl, second⟩)).1

end MyBookSources.Net.OutputPath
