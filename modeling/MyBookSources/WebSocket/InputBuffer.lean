import MyBookSources.Net.BufferSpec
import MyBookSources.WebSocket.PackageDecoding

/-! # The session's input buffer

A session is modelled on the unread bytes of its input buffer. On the buffer itself a
call of `onRead` is a series of calls of `retrieve`, all of which succeed, and the unread
bytes are those that the buffer then has.
-/

namespace MyBookSources.WebSocket

open Net (Buffer)

/-- Calls of `retrieve`, none of which is refused. -/
inductive Retrieves : Buffer → List Nat → Buffer → Prop
  | nil (buffer) : Retrieves buffer [] buffer
  | cons {buffer count counts last} : (buffer.retrieve count).1 = true →
      Retrieves (buffer.retrieve count).2 counts last → Retrieves buffer (count :: counts) last

theorem exists_retrieves {buffer : Buffer} (wellFormed : buffer.WellFormed) {counts : List Nat}
    (enough : counts.sum ≤ buffer.readable.length) :
    ∃ last, Retrieves buffer counts last ∧ last.WellFormed ∧
      last.readable = buffer.readable.drop counts.sum := by
  induction counts generalizing buffer with
  | nil => exact ⟨buffer, .nil buffer, wellFormed, rfl⟩
  | cons count counts induction =>
      rw [List.sum_cons] at enough
      have fits : count ≤ buffer.readableBytes := by
        rw [← wellFormed.length_readable]
        omega
      rcases Buffer.retrieve_spec wellFormed fits with ⟨answer, wellFormedNext, readable⟩
      have enoughNext : counts.sum ≤ (buffer.retrieve count).2.readable.length := by
        rw [readable, List.length_drop]
        omega
      rcases induction wellFormedNext enoughNext with ⟨last, retrieves, wellFormedLast, rest⟩
      refine ⟨last, .cons answer retrieves, wellFormedLast, ?_⟩
      rw [rest, readable, List.drop_drop, List.sum_cons]

namespace MyWebSocketSession

/-- On the buffer a call of `onRead` retrieves what it takes, and nothing is refused. -/
theorem onRead_retrieves {platform : Platform} {session : MyWebSocketSession} {buffer : Buffer}
    (wellFormed : buffer.WellFormed) {next : Progress}
    (returned : session.onRead platform buffer.readable = some next) :
    ∃ counts last, Retrieves buffer counts last ∧ last.WellFormed ∧
      last.readable = next.unread := by
  rcases onReadLoop_counts returned with ⟨counts, enough, same⟩
  rcases exists_retrieves wellFormed enough with ⟨last, retrieves, wellFormedLast, readable⟩
  exact ⟨counts, last, retrieves, wellFormedLast, readable.trans same.symm⟩

theorem append_onRead_retrieves {platform : Platform} {session : MyWebSocketSession}
    {buffer : Buffer} (wellFormed : buffer.WellFormed) {read : Bytes}
    (room : buffer.Room read.length) {next : Progress}
    (returned : session.onRead platform (buffer.readable ++ read) = some next) :
    ∃ counts last, Retrieves (buffer.append read) counts last ∧ last.WellFormed ∧
      last.readable = next.unread := by
  rcases Buffer.append_spec wellFormed room with ⟨wellFormedRead, readable⟩
  rw [← readable] at returned
  exact onRead_retrieves wellFormedRead returned

end MyWebSocketSession

end MyBookSources.WebSocket
