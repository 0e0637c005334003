import MyBookSources.RecvMail.Pop3Socket

/-! # The commands of the POP3 logon

`logon` prints both of its commands to one buffer of 32 bytes.
-/

namespace MyBookSources.RecvMail.Pop3Socket

open LockStep (Trace)

/-! ## What a call hands to the socket -/

/-- The call hands over these commands from the front, and all of them if it returns true. -/
def Hands (before : Pop3Socket) (result : Result) (complete : List Bytes) : Prop :=
  ∃ events, result.2.trace = before.trace ++ events ∧ events.handed <+: complete ∧
    (result.1 = some true → events.handed = complete)

/-- Whatever the socket, no command is cut, and none is printed behind its buffer. -/
def HandsOver (call : Pop3Socket → Result) (complete : List Bytes) : Prop :=
  ∀ pop3, Hands pop3 (call pop3) complete ∧
    ((call pop3).2.overrun = true → pop3.overrun = true)

theorem recvLoop_trace (peer : Peer) (marker : Bytes) (polls tries : Nat) (pop3 : Pop3Socket) :
    ∃ events, (recvLoop peer marker polls tries pop3).2.trace = pop3.trace ++ events ∧
      events.handed = [] := by
  fun_induction recvLoop peer marker polls tries pop3 with
  | case1 tries pop3 => exact ⟨[], (List.append_nil _).symm, rfl⟩
  | case2 polls pop3 poll next quiet => exact ⟨[.received poll], rfl, rfl⟩
  | case3 polls tries pop3 poll next quiet left induction =>
      rcases induction with ⟨events, same, none⟩
      exact ⟨.received poll :: events, by rw [same]; simp [next], none⟩
  | case4 polls tries pop3 poll => exact ⟨[.received poll], rfl, rfl⟩
  | case5 polls tries pop3 poll => exact ⟨[.received poll], rfl, rfl⟩
  | case6 polls tries pop3 poll next bytes data received missing induction =>
      rcases induction with ⟨events, same, none⟩
      exact ⟨.received poll :: events, by rw [same]; simp [received, next], none⟩

theorem receive_trace (peer : Peer) (marker : Bytes) (tries polls : Nat) (pop3 : Pop3Socket) :
    ∃ events, (receive peer marker tries polls pop3).2.trace = pop3.trace ++ events ∧
      events.handed = [] := by
  rw [receive]
  split
  · exact ⟨[], (List.append_nil _).symm, rfl⟩
  · exact recvLoop_trace peer marker polls tries { pop3 with strRecv := [] }

theorem request_hands (peer : Peer) (polls : Nat) (toRecvBody : Bool) {pop3 : Pop3Socket}
    (some_byte : pop3.strSend ≠ []) :
    Hands pop3 (request peer polls toRecvBody pop3) [pop3.strSend] := by
  have replied : ∀ pop3 : Pop3Socket, ∃ events,
      (if toRecvBody then recvBody peer polls pop3 else recvData peer polls pop3).2.trace =
        pop3.trace ++ events ∧ events.handed = [] := by
    intro pop3
    cases toRecvBody with
    | true => exact receive_trace peer _ 20 polls pop3
    | false => exact receive_trace peer _ 5 polls pop3
  rw [request]
  split
  · refine ⟨[], (List.append_nil _).symm, List.nil_prefix, fun sent => ?_⟩
    cases sent
  · dsimp only
    split
    · rcases replied
        { pop3 with
          strRecv := []
          trace := pop3.trace ++ [.sent pop3.strSend] } with ⟨events, same, none⟩
      have whole : Trace.handed (.sent pop3.strSend :: events) = [pop3.strSend] := by
        rw [Trace.handed, none]
      split
      · next after failed =>
          rw [failed] at same
          refine ⟨.sent pop3.strSend :: events, ?_, by rw [whole], fun _ => whole⟩
          change after.trace = _
          rw [same, List.append_assoc]
          rfl
      · refine ⟨.sent pop3.strSend :: events, ?_, by rw [whole], fun _ => whole⟩
        rw [same, List.append_assoc]
        rfl
    · refine ⟨[.failed pop3.strSend], rfl, List.prefix_rfl, fun sent => ?_⟩
      cases sent

theorem Hands.andThen {call rest : Pop3Socket → Result} {left right : List Bytes}
    {pop3 : Pop3Socket} (first : Hands pop3 (call pop3) left)
    (next : ∀ after, call pop3 = (some true, after) → Hands after (rest after) right) :
    Hands pop3 (andThen call pop3 rest) (left ++ right) := by
  rcases first with ⟨events, same, front, whole⟩
  rw [Pop3Socket.andThen]
  split
  · next after going =>
      rw [going] at same whole
      rcases next after going with ⟨later, added, back, all⟩
      refine ⟨events ++ later, ?_, ?_, ?_⟩
      · rw [added, same, List.append_assoc]
      · rw [Trace.handed_append, whole rfl]
        exact (List.prefix_append_right_inj left).mpr back
      · intro done
        rw [Trace.handed_append, whole rfl, all done]
  · next after failed =>
      rw [failed] at same
      exact ⟨events, same, front.trans (List.prefix_append _ _), nofun⟩
  · next after waiting =>
      rw [waiting] at same
      exact ⟨events, same, front.trans (List.prefix_append _ _), nofun⟩

theorem verified_hands (pop3 : Pop3Socket) : Hands pop3 (verified pop3) [] :=
  ⟨[], (List.append_nil _).symm, List.prefix_rfl, fun _ => rfl⟩

/-! ## The logon -/

theorem Hands.of_print {pop3 : Pop3Socket} (size : Nat) (text : Bytes) {result : Result}
    {complete : List Bytes} (hands : Hands (pop3.print size text) result complete) :
    Hands pop3 result complete := hands

theorem logon_hands (peer : Peer) (polls : Nat) (pszUser pszPassword : Bytes)
    (pop3 : Pop3Socket) :
    Hands pop3 (logon peer polls pszUser pszPassword pop3)
      [userCommand pszUser, passCommand pszPassword] := by
  have user : userCommand pszUser ≠ [] :=
    List.append_ne_nil_of_right_ne_nil _ (by decide)
  have password : passCommand pszPassword ≠ [] :=
    List.append_ne_nil_of_right_ne_nil _ (by decide)
  rw [logon]
  split
  · exact ⟨[], (List.append_nil _).symm, List.nil_prefix, nofun⟩
  · change Hands pop3 _
      ([userCommand pszUser] ++ ([] ++ ([passCommand pszPassword] ++ ([] ++ []))))
    apply Hands.of_print 32 (userCommand pszUser)
    apply (request_hands peer polls false user).andThen
    intro asked _
    apply (verified_hands asked).andThen
    intro accepted _
    apply Hands.of_print 32 (passCommand pszPassword)
    apply (request_hands peer polls false password).andThen
    intro answered _
    apply (verified_hands answered).andThen
    intro last _
    exact ⟨[], (List.append_nil _).symm, List.prefix_rfl, fun _ => rfl⟩

/-! ## The buffer -/

theorem andThen_overrun (holds : Bool → Prop) {call rest : Pop3Socket → Result}
    {pop3 : Pop3Socket} (keeps : (call pop3).2.overrun = pop3.overrun)
    (stays : holds pop3.overrun)
    (next : ∀ after, after.overrun = pop3.overrun → holds (rest after).2.overrun) :
    holds (andThen call pop3 rest).2.overrun := by
  rw [andThen]
  split
  · next after going =>
      rw [going] at keeps
      exact next after keeps
  · next after failed =>
      rw [failed] at keeps
      change holds after.overrun
      rwa [keeps]
  · next after waiting =>
      rw [waiting] at keeps
      change holds after.overrun
      rwa [keeps]

theorem logon_overrun (peer : Peer) (polls : Nat) (pszUser pszPassword : Bytes)
    {pop3 : Pop3Socket} (opened : pop3.hSocket ≠ INVALID_SOCKET) :
    let printed := pop3.overrun || decide (32 ≤ (userCommand pszUser).length)
    (logon peer polls pszUser pszPassword pop3).2.overrun = printed ∨
      (logon peer polls pszUser pszPassword pop3).2.overrun =
        (printed || decide (32 ≤ (passCommand pszPassword).length)) := by
  intro printed
  let holds (overrun : Bool) : Prop :=
    overrun = printed ∨ overrun = (printed || decide (32 ≤ (passCommand pszPassword).length))
  change holds _
  rw [logon, if_neg opened]
  apply andThen_overrun holds (request_keeps peer polls false _).overrun (.inl rfl)
  intro asked same
  apply andThen_overrun holds rfl (.inl same)
  intro accepted kept
  have both : (accepted.print 32 (passCommand pszPassword)).overrun =
      (printed || decide (32 ≤ (passCommand pszPassword).length)) := by
    rw [print, kept, same]
    rfl
  apply andThen_overrun holds (request_keeps peer polls false _).overrun (.inr both)
  intro answered again
  apply andThen_overrun holds rfl (.inr (again.trans both))
  intro last ended
  exact .inr (ended.trans (again.trans both))

def accepting : Peer := ⟨fun _ => true, fun _ => .data (ascii "+OK\r\n")⟩

def connected : Pop3Socket := ⟨0, false, [], [], [], [], false, []⟩

theorem logon_accepting (pszUser pszPassword : Bytes) :
    (logon accepting 1 pszUser pszPassword connected).2.overrun =
      (decide (32 ≤ (userCommand pszUser).length) ||
        decide (32 ≤ (passCommand pszPassword).length)) := by
  have user : userCommand pszUser ≠ [] :=
    List.append_ne_nil_of_right_ne_nil _ (by decide)
  have password : passCommand pszPassword ≠ [] :=
    List.append_ne_nil_of_right_ne_nil _ (by decide)
  have opened : (0 : Int) ≠ INVALID_SOCKET := by decide
  have ended : contains (ascii "+OK\r\n") (ascii "\r\n") = true := by decide
  have accepts : verifyRecvData (ascii "+OK\r\n") = true := by decide
  simp [logon, andThen, request, print, recvData, receive, recvLoop, verified, accepting, connected,
    user, password, opened, ended, accepts]

theorem userCommand_fits_iff (pszUser : Bytes) :
    (userCommand pszUser).length < 32 ↔ (cString pszUser).length ≤ 24 := by
  have front : (ascii "USER ").length = 5 := by decide
  have back : (ascii "\r\n").length = 2 := by decide
  rw [userCommand, List.length_append, List.length_append, front, back]
  omega

theorem passCommand_fits_iff (pszPassword : Bytes) :
    (passCommand pszPassword).length < 32 ↔ (cString pszPassword).length ≤ 24 := by
  have front : (ascii "PASS ").length = 5 := by decide
  have back : (ascii "\r\n").length = 2 := by decide
  rw [passCommand, List.length_append, List.length_append, front, back]
  omega

/-- Both commands are always complete; they stay inside their buffer exactly if neither the
name nor the password is longer than 24 bytes. -/
theorem logon_handsOver_iff (pszUser pszPassword : Bytes) :
    (∀ peer polls, HandsOver (logon peer polls pszUser pszPassword)
      [userCommand pszUser, passCommand pszPassword]) ↔
      (cString pszUser).length ≤ 24 ∧ (cString pszPassword).length ≤ 24 := by
  rw [← userCommand_fits_iff, ← passCommand_fits_iff]
  constructor
  · intro hands
    have inside := (hands accepting 1 connected).2
    rw [logon_accepting] at inside
    by_contra long
    have tooLong : (decide (32 ≤ (userCommand pszUser).length) ||
        decide (32 ≤ (passCommand pszPassword).length)) = true := by
      rw [Bool.or_eq_true, decide_eq_true_iff, decide_eq_true_iff]
      omega
    exact Bool.false_ne_true (inside tooLong)
  · rintro ⟨user, password⟩ peer polls pop3
    refine ⟨logon_hands peer polls pszUser pszPassword pop3, ?_⟩
    by_cases opened : pop3.hSocket = INVALID_SOCKET
    · rw [logon, if_pos opened]
      exact id
    · have userFits : decide (32 ≤ (userCommand pszUser).length) = false :=
        decide_eq_false (by omega)
      have passwordFits : decide (32 ≤ (passCommand pszPassword).length) = false :=
        decide_eq_false (by omega)
      have printed := logon_overrun peer polls pszUser pszPassword opened
      simp only [userFits, passwordFits, Bool.or_false, or_self] at printed
      rw [printed]
      exact id

end MyBookSources.RecvMail.Pop3Socket
