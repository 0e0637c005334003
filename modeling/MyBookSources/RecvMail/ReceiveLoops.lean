import MyBookSources.RecvMail.Pop3Socket
import MyBookSources.RecvMail.Splitting

/-! # The receive loops of the POP3 client

`recvBody` and `recvData` count the polls that find nothing. A connection that the server has
closed is found readable at every poll, and `recv` returns no bytes.
-/

namespace MyBookSources.RecvMail.Pop3Socket

open Polling (Poll Endless Passes Stalls received quiets)

def following (peer : Peer) (pop3 : Pop3Socket) : Nat → Poll Byte :=
  fun count => peer.replies (pop3.trace.received.length + count)

def Found (marker : Bytes) (strRecv : Bytes) : Prop := contains strRecv marker = true

/-- The call returns, or `m_strRecv` grows without end. -/
def EndsOrGrows (call : Nat → Result) : Prop :=
  (∀ polls, (call polls).1 = none) → ∀ bound, ∃ polls, bound ≤ (call polls).2.strRecv.length

/-! ## The loop and its polls -/

/-- Where the loop is when `count` polls are behind it. -/
structure Behind (found : Nat → Poll Byte) (budget start count tries : Nat)
    (pop3 : Pop3Socket) : Prop where
  position : pop3.trace.received.length = start + count
  strRecv : pop3.strRecv = received found count
  tries : tries + quiets found count = budget

section

variable {peer : Peer} {marker : Bytes} {start budget : Nat}

theorem received_append_one (trace : LockStep.Trace Bytes (Poll Byte)) (poll : Poll Byte) :
    (trace ++ [LockStep.Event.received poll]).received.length = trace.received.length + 1 := by
  rw [LockStep.Trace.received_append, List.length_append]
  rfl

theorem forall_lt_succ_iff {holds : Nat → Prop} (count polls : Nat) :
    (∀ later, later < polls + 1 → holds (count + later)) ↔
      holds count ∧ ∀ later, later < polls → holds (count + 1 + later) := by
  constructor
  · intro all
    refine ⟨all 0 (Nat.succ_pos _), ?_⟩
    intro later early
    have next := all (later + 1) (Nat.succ_lt_succ early)
    rwa [Nat.add_comm later 1, ← Nat.add_assoc] at next
  · rintro ⟨first, rest⟩ later early
    cases later with
    | zero => exact first
    | succ later =>
        rw [Nat.add_comm later 1, ← Nat.add_assoc]
        exact rest later (Nat.lt_of_succ_lt_succ early)

/-- The loop waits for more polls exactly if it passes all it has had, and has collected what
they brought. -/
theorem recvLoop_waits_iff {polls count tries : Nat} {pop3 : Pop3Socket}
    {found : Nat → Poll Byte} (replies : ∀ count, peer.replies (start + count) = found count)
    (behind : Behind found budget start count tries pop3) :
    ((recvLoop peer marker polls tries pop3).1 = none ↔
      ∀ later, later < polls → Passes found budget (Found marker) (count + later)) ∧
    ((recvLoop peer marker polls tries pop3).1 = none →
      (recvLoop peer marker polls tries pop3).2.strRecv = received found (count + polls)) := by
  induction polls generalizing count tries pop3 with
  | zero =>
      constructor
      · exact iff_of_true rfl fun later early => absurd early (Nat.not_lt_zero _)
      · intro _
        exact behind.strRecv
  | succ polls induction =>
      rcases behind with ⟨position, strRecv, few⟩
      have next := received_append_one pop3.trace (found count)
      rw [forall_lt_succ_iff, Passes, recvLoop]
      dsimp only
      rw [position] at next
      rw [position, replies]
      have total : count + (polls + 1) = count + 1 + polls := by omega
      cases poll : found count with
      | quiet =>
          rw [poll] at next
          dsimp only
          by_cases last : tries = 0
          · rw [if_pos last]
            constructor
            · refine iff_of_false (Option.some_ne_none _) ?_
              rintro ⟨few, _⟩
              omega
            · intro waits
              cases waits
          · rw [if_neg last, total]
            have later : Behind found budget start (count + 1) (tries - 1)
                { pop3 with trace := pop3.trace ++ [.received .quiet] } := by
              refine ⟨next.trans (Nat.add_assoc _ _ _), ?_, ?_⟩
              · rw [received, poll]
                simpa [Poll.items] using strRecv
              · rw [quiets, poll, Poll.isQuiet]
                omega
            have rest := induction later
            rw [rest.1]
            refine ⟨(and_iff_right (by omega)).symm, ?_⟩
            rw [← rest.1]
            exact rest.2
      | error =>
          dsimp only
          refine ⟨iff_of_false (Option.some_ne_none _) (fun passes => passes.1), fun waits => ?_⟩
          cases waits
      | data bytes =>
          rw [poll] at next
          dsimp only
          have collected : received found (count + 1) = pop3.strRecv ++ bytes := by
            rw [received, poll, strRecv]
            rfl
          rw [collected]
          by_cases ended : contains (pop3.strRecv ++ bytes) marker = true
          · rw [if_pos ended]
            refine ⟨iff_of_false (Option.some_ne_none _) (fun passes => passes.1 ended),
              fun waits => ?_⟩
            cases waits
          · rw [if_neg ended, total]
            have later : Behind found budget start (count + 1) tries
                { pop3 with
                  trace := pop3.trace ++ [.received (.data bytes)]
                  strRecv := pop3.strRecv ++ bytes } := by
              refine ⟨next.trans (Nat.add_assoc _ _ _), collected.symm, ?_⟩
              rw [quiets, poll, Poll.isQuiet]
              exact few
            have rest := induction later
            rw [rest.1]
            refine ⟨(and_iff_right ended).symm, ?_⟩
            rw [← rest.1]
            exact rest.2

end

/-! ## The calls -/

theorem receive_waits_iff (peer : Peer) (marker : Bytes) (budget : Nat) {pop3 : Pop3Socket}
    (opened : pop3.hSocket ≠ INVALID_SOCKET) (polls : Nat) :
    ((receive peer marker budget polls pop3).1 = none ↔
      ∀ count, count < polls → Passes (following peer pop3) budget (Found marker) count) ∧
    ((receive peer marker budget polls pop3).1 = none →
      (receive peer marker budget polls pop3).2.strRecv =
        received (following peer pop3) polls) := by
  have behind : Behind (following peer pop3) budget pop3.trace.received.length 0 budget
      { pop3 with strRecv := [] } := ⟨rfl, rfl, rfl⟩
  have loop := @recvLoop_waits_iff peer marker _ _ polls _ _ _ _ (fun count => rfl) behind
  simp only [Nat.zero_add] at loop
  rw [receive, if_neg opened]
  exact loop

theorem found_append (marker front back : Bytes) (found : Found marker front) :
    Found marker (front ++ back) := by
  rw [Found, contains_iff] at found ⊢
  exact found.trans (List.prefix_append front back).isInfix

theorem receive_endsOrGrows_iff (peer : Peer) {marker : Bytes} (some_byte : marker ≠ [])
    (budget : Nat) (pop3 : Pop3Socket) :
    EndsOrGrows (fun polls => receive peer marker budget polls pop3) ↔
      (pop3.hSocket ≠ INVALID_SOCKET →
        ¬ Stalls (following peer pop3) budget (Found marker)) := by
  by_cases opened : pop3.hSocket = INVALID_SOCKET
  · refine iff_of_true ?_ (fun other => absurd opened other)
    intro waits
    have first : (receive peer marker budget 0 pop3).1 = none := waits 0
    rw [receive, if_pos opened] at first
    cases first
  · have start : ¬ Found marker [] := by
      rw [Found, contains_iff, List.infix_nil]
      exact some_byte
    rw [imp_iff_right opened, ← Polling.endless_grows_iff (found_append marker) start]
    have endless : (∀ polls, (receive peer marker budget polls pop3).1 = none) ↔
        Endless (following peer pop3) budget (Found marker) := by
      constructor
      · intro waits count
        exact ((receive_waits_iff peer marker budget opened (count + 1)).1.mp (waits _)) count
          (Nat.lt_succ_self count)
      · intro endless polls
        exact (receive_waits_iff peer marker budget opened polls).1.mpr
          fun count _ => endless count
    unfold EndsOrGrows
    rw [endless]
    apply imp_congr_right
    intro waits
    have collected : ∀ polls, (receive peer marker budget polls pop3).2.strRecv =
        received (following peer pop3) polls :=
      fun polls => (receive_waits_iff peer marker budget opened polls).2 (endless.mpr waits polls)
    simp only [collected]

/-- Each loop ends or receives without end exactly if the connection does not stall: not from
some poll on all bring no bytes, without an error, a marker or too many quiet polls before. -/
theorem receive_loops_end_or_grow_iff (peer : Peer) (pop3 : Pop3Socket) :
    (EndsOrGrows (fun polls => recvBody peer polls pop3) ↔
      (pop3.hSocket ≠ INVALID_SOCKET →
        ¬ Stalls (following peer pop3) 20 (Found (ascii "\r\n.\r\n")))) ∧
    (EndsOrGrows (fun polls => recvData peer polls pop3) ↔
      (pop3.hSocket ≠ INVALID_SOCKET →
        ¬ Stalls (following peer pop3) 5 (Found (ascii "\r\n")))) :=
  ⟨receive_endsOrGrows_iff peer (by decide) 20 pop3,
    receive_endsOrGrows_iff peer (by decide) 5 pop3⟩

/-- A server that closes the connection before its greeting keeps both loops running. -/
theorem closed_connection_polled_for_ever :
    ∃ (peer : Peer) (pop3 : Pop3Socket), pop3.hSocket ≠ INVALID_SOCKET ∧
      (∀ count, peer.replies count = .data []) ∧
      ¬ EndsOrGrows (fun polls => recvBody peer polls pop3) ∧
      ¬ EndsOrGrows (fun polls => recvData peer polls pop3) := by
  let peer : Peer := ⟨fun _ => true, fun _ => .data []⟩
  let pop3 : Pop3Socket := ⟨0, false, [], [], [], [], false, []⟩
  have opened : pop3.hSocket ≠ INVALID_SOCKET := by decide
  have stalls : ∀ (budget : Nat) {marker : Bytes}, marker ≠ [] →
      Stalls (following peer pop3) budget (Found marker) := by
    intro budget marker some_byte
    refine ⟨0, fun _ _ => rfl, fun count early => absurd early (Nat.not_lt_zero _),
      Nat.zero_le _, ?_⟩
    rw [Found, contains_iff]
    exact fun empty => some_byte (List.infix_nil.mp empty)
  refine ⟨peer, pop3, opened, fun _ => rfl, ?_, ?_⟩
  · intro ends
    exact (receive_endsOrGrows_iff peer (by decide) 20 pop3).mp ends opened (stalls 20 (by decide))
  · intro ends
    exact (receive_endsOrGrows_iff peer (by decide) 5 pop3).mp ends opened (stalls 5 (by decide))

end MyBookSources.RecvMail.Pop3Socket
