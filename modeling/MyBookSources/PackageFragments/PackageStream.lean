import MyBookSources.PackageFragments.RecvDataThread

/-! # The packages of a stream

As long as no head is refused, the thread is a reader of the stream: what it hands on does not
depend on how the stream comes in.
-/

namespace MyBookSources.PackageFragments

open Incremental (Span)

variable {CheckPkgHead : NtPkgHead → Bool}

def span (CheckPkgHead : NtPkgHead → Bool) (m_strRecvBuf : Bytes) : Span :=
  if m_strRecvBuf.length < headSize then .waits
  else if !CheckPkgHead (NtPkgHead.read m_strRecvBuf) then .fails
  else if m_strRecvBuf.length < (NtPkgHead.read m_strRecvBuf).wLen.toNat then .waits
  else .takes (NtPkgHead.read m_strRecvBuf).wLen.toNat

theorem span_takes {m_strRecvBuf : Bytes} {count : Nat}
    (takes : span CheckPkgHead m_strRecvBuf = .takes count) :
    headSize ≤ m_strRecvBuf.length ∧ CheckPkgHead (NtPkgHead.read m_strRecvBuf) = true ∧
      count = (NtPkgHead.read m_strRecvBuf).wLen.toNat ∧ count ≤ m_strRecvBuf.length := by
  rw [span] at takes
  split at takes
  · cases takes
  · next whole =>
    split at takes
    · cases takes
    · next accepted =>
      split at takes
      · cases takes
      · next inside =>
        cases takes
        rw [Bool.not_eq_true', Bool.not_eq_false] at accepted
        exact ⟨Nat.le_of_not_lt whole, accepted, rfl, Nat.le_of_not_lt inside⟩

def packageReader (CheckPkgHead : NtPkgHead → Bool) :
    Draining.Reader TotalPkg Byte Effect where
  span := span CheckPkgHead
  take totalPkg strPkg := totalPkg.takePkg (NtPkgHead.read strPkg) strPkg
  span_le := fun takes => (span_takes takes).2.2.2
  span_append := by
    intro elements later front
    rw [span] at front
    split at front
    · exact absurd rfl front
    · next whole =>
      rw [Nat.not_lt] at whole
      rw [span, span, NtPkgHead.read_append whole, List.length_append,
        if_neg (show ¬ elements.length + later.length < headSize by omega),
        if_neg (Nat.not_lt.mpr whole)]
      split at front
      · next refused => rw [if_pos refused, if_pos refused]
      · next accepted =>
        split at front
        · exact absurd rfl front
        · next inside =>
          rw [if_neg accepted, if_neg accepted, if_neg inside, if_neg (by omega)]

abbrev Waits (CheckPkgHead : NtPkgHead → Bool) (thread : RecvDataThread) : Prop :=
  span CheckPkgHead thread.m_strRecvBuf = .waits

theorem waits_of_empty {thread : RecvDataThread} (empty : thread.m_strRecvBuf = []) :
    Waits CheckPkgHead thread := by
  rw [Waits, empty]
  rfl

theorem takePkg_front (totalPkg : TotalPkg) (m_strRecvBuf : Bytes) (count : Nat) :
    totalPkg.takePkg (NtPkgHead.read (m_strRecvBuf.take count)) (m_strRecvBuf.take count) =
      totalPkg.takePkg (NtPkgHead.read m_strRecvBuf) (m_strRecvBuf.take count) := by
  by_cases whole : headSize ≤ count
  · rw [NtPkgHead.read_take whole]
  · have short : (m_strRecvBuf.take count).length < headSize := by
      rw [List.length_take]
      omega
    rw [TotalPkg.takePkg, TotalPkg.takePkg, if_pos short, if_pos short]

theorem innerLoop_eq (totalPkg : TotalPkg) (m_strRecvBuf : Bytes) :
    RecvDataThread.innerLoop CheckPkgHead totalPkg m_strRecvBuf =
      match span CheckPkgHead m_strRecvBuf with
      | .waits => some ({ m_strRecvBuf := m_strRecvBuf, totalPkg := totalPkg }, [])
      | .fails => some ({ m_strRecvBuf := [], totalPkg := totalPkg }, [.reconnect])
      | .takes count =>
          ((packageReader CheckPkgHead).take totalPkg (m_strRecvBuf.take count)).bind fun next =>
            (RecvDataThread.innerLoop CheckPkgHead next.1 (m_strRecvBuf.drop count)).map fun last =>
              (last.1, next.2 ++ last.2) := by
  rw [RecvDataThread.innerLoop, span]
  dsimp only
  split
  · rfl
  · split
    · rfl
    · split
      · rfl
      · change _ = Option.bind (TotalPkg.takePkg _ _ _) _
        rw [takePkg_front]
        split
        · next failed => rw [failed, Option.bind_none]
        · next taken => rw [taken, Option.bind_some]

/-- The inner loop leaves no package in the buffer. If it has refused no head, it has taken the
packages of the stream. -/
theorem innerLoop_some {totalPkg : TotalPkg} {m_strRecvBuf : Bytes} {thread : RecvDataThread}
    {effects : List Effect}
    (done : RecvDataThread.innerLoop CheckPkgHead totalPkg m_strRecvBuf = some (thread, effects)) :
    Waits CheckPkgHead thread ∧ (.reconnect ∉ effects →
      (packageReader CheckPkgHead).Drains totalPkg m_strRecvBuf thread.totalPkg
        thread.m_strRecvBuf effects) := by
  induction size : m_strRecvBuf.length using Nat.strongRecOn generalizing totalPkg m_strRecvBuf
    thread effects with
  | ind length induction =>
      rw [innerLoop_eq] at done
      split at done
      · next waits =>
          cases done
          exact ⟨waits, fun _ => .waits waits⟩
      · cases done
        exact ⟨waits_of_empty rfl, fun accepted => absurd (List.mem_singleton.mpr rfl) accepted⟩
      · next count takes =>
          rcases Option.bind_eq_some_iff.mp done with ⟨⟨next, first⟩, taken, done⟩
          rcases Option.map_eq_some_iff.mp done with ⟨⟨last, others⟩, goesOn, equal⟩
          cases equal
          have whole := TotalPkg.headSize_le_of_takePkg taken
          rw [List.length_take, headSize] at whole
          have shorter : (m_strRecvBuf.drop count).length < length := by
            rw [List.length_drop]
            omega
          rcases induction _ shorter goesOn rfl with ⟨waits, drains⟩
          apply And.intro waits
          intro accepted
          apply Draining.Reader.Drains.takes takes taken
          exact drains fun member => accepted (List.mem_append_right first member)

theorem innerLoop_of_drains {totalPkg last : TotalPkg} {m_strRecvBuf rest : Bytes}
    {effects : List Effect}
    (drains : (packageReader CheckPkgHead).Drains totalPkg m_strRecvBuf last rest effects) :
    RecvDataThread.innerLoop CheckPkgHead totalPkg m_strRecvBuf =
      some ({ m_strRecvBuf := rest, totalPkg := last }, effects) := by
  induction drains with
  | waits waits =>
      change span CheckPkgHead _ = _ at waits
      rw [innerLoop_eq, waits]
  | takes takes taken _ induction =>
      change span CheckPkgHead _ = _ at takes
      rw [innerLoop_eq, takes]
      dsimp only
      rw [taken, Option.bind_some, induction, Option.map_some]

/-! ## Turns of the outer loop -/

def Turn.data : Turn → Bytes
  | .idle => []
  | .received data => data
  | .failed => []

theorem outerTurn_waits {thread next : RecvDataThread} {turn : Turn} {effects : List Effect}
    (waits : Waits CheckPkgHead thread)
    (done : thread.outerTurn CheckPkgHead turn = some (next, effects)) :
    Waits CheckPkgHead next := by
  cases turn with
  | idle =>
      cases done
      exact waits
  | received data => exact (innerLoop_some done).1
  | failed =>
      cases done
      exact waits_of_empty rfl

theorem run_waits {thread last : RecvDataThread} {turns : List Turn} {effects : List Effect}
    (waits : Waits CheckPkgHead thread)
    (done : thread.run CheckPkgHead turns = some (last, effects)) : Waits CheckPkgHead last := by
  induction turns generalizing thread effects with
  | nil =>
      cases done
      exact waits
  | cons turn turns induction =>
      rcases Option.bind_eq_some_iff.mp done with ⟨⟨next, first⟩, begins, done⟩
      rcases Option.bind_eq_some_iff.mp done with ⟨⟨final, others⟩, goesOn, equal⟩
      cases equal
      exact induction (outerTurn_waits waits begins) goesOn

/-- Turns without an error that refuse no head take the packages of the chunks. -/
theorem drainsAll_of_run {thread last : RecvDataThread} {turns : List Turn}
    {effects : List Effect} (waits : Waits CheckPkgHead thread) (whole : .failed ∉ turns)
    (done : thread.run CheckPkgHead turns = some (last, effects))
    (accepted : .reconnect ∉ effects) :
    (packageReader CheckPkgHead).DrainsAll thread.totalPkg thread.m_strRecvBuf
      (turns.map Turn.data) last.totalPkg last.m_strRecvBuf effects := by
  induction turns generalizing thread effects with
  | nil =>
      cases done
      exact .nil
  | cons turn turns induction =>
      rcases Option.bind_eq_some_iff.mp done with ⟨⟨next, first⟩, begins, done⟩
      rcases Option.bind_eq_some_iff.mp done with ⟨⟨final, others⟩, goesOn, equal⟩
      cases equal
      rw [List.mem_cons, not_or] at whole
      rw [List.mem_append, not_or] at accepted
      have rest := induction (outerTurn_waits waits begins) whole.2 goesOn accepted.2
      refine .cons ?_ rest
      cases turn with
      | idle =>
          cases begins
          rw [Turn.data, List.append_nil]
          exact .waits waits
      | received data => exact (innerLoop_some begins).2 accepted.1
      | failed => exact absurd rfl whole.1

theorem run_of_drainsAll {thread : RecvDataThread} {turns : List Turn} {totalPkg : TotalPkg}
    {rest : Bytes} {effects : List Effect} (waits : Waits CheckPkgHead thread)
    (whole : .failed ∉ turns)
    (all : (packageReader CheckPkgHead).DrainsAll thread.totalPkg thread.m_strRecvBuf
      (turns.map Turn.data) totalPkg rest effects) :
    thread.run CheckPkgHead turns =
      some ({ m_strRecvBuf := rest, totalPkg := totalPkg }, effects) := by
  induction turns generalizing thread effects with
  | nil =>
      cases all
      rfl
  | cons turn turns induction =>
      rw [List.mem_cons, not_or] at whole
      cases all with
      | @cons _ _ _ _ next left first _ _ others begins goesOn =>
          have turned : thread.outerTurn CheckPkgHead turn =
              some ({ m_strRecvBuf := left, totalPkg := next }, first) := by
            cases turn with
            | idle =>
                rw [Turn.data, List.append_nil] at begins
                rcases begins.of_waits waits with ⟨rfl, rfl, rfl⟩
                rfl
            | received data => exact innerLoop_of_drains begins
            | failed => exact absurd rfl whole.1
          have run : RecvDataThread.run CheckPkgHead { m_strRecvBuf := left, totalPkg := next }
              turns = some ({ m_strRecvBuf := rest, totalPkg := totalPkg }, others) :=
            induction begins.rest_waits whole.2 goesOn
          rw [RecvDataThread.run, turned]
          exact congrArg (Option.bind · _) run

/-- What comes in without an error and with no head refused can come in any other way. -/
theorem run_division {before left right : List Turn} {thread last : RecvDataThread}
    {earlier effects : List Effect}
    (reached : RecvDataThread.start.run CheckPkgHead before = some (thread, earlier))
    (leftWhole : .failed ∉ left) (rightWhole : .failed ∉ right)
    (same : left.flatMap Turn.data = right.flatMap Turn.data)
    (done : thread.run CheckPkgHead left = some (last, effects))
    (accepted : .reconnect ∉ effects) :
    thread.run CheckPkgHead right = some (last, effects) := by
  have waits : Waits CheckPkgHead thread := run_waits (waits_of_empty rfl) reached
  have all := drainsAll_of_run waits leftWhole done accepted
  rw [Draining.Reader.drainsAll_iff waits, ← List.flatMap_def, same, List.flatMap_def,
    ← Draining.Reader.drainsAll_iff waits] at all
  exact run_of_drainsAll waits rightWhole all

def headAlone : NtPkgHead where
  bStartFlag := 255
  bVer := 1
  bEncryptFlag := 0
  bFrag := 0
  wLen := 20
  wCmd := 7
  wSeq := 1
  wCrc := 0
  dwSID := 5
  wTotal := 0
  wCurSeq := 0

theorem run_division_headAlone :
    ∃ last effects, RecvDataThread.start.run (fun pkgHead => pkgHead.bStartFlag = 255)
      [.received (headAlone.bytes.take 3), .idle, .received (headAlone.bytes.drop 3)] =
        some (last, effects) ∧ effects ≠ [] := by
  have waits : Waits (fun pkgHead => pkgHead.bStartFlag = 255) .start := rfl
  have takes : span (fun pkgHead => pkgHead.bStartFlag = 255) headAlone.bytes = .takes 20 := by
    decide
  have drains : (packageReader fun pkgHead => pkgHead.bStartFlag = 255).Drains .empty
      headAlone.bytes .empty [] ([.addPackage { nCmd := 7, nLength := 0, pszJson := [] }] ++ []) :=
    .takes takes (by decide) (.waits rfl)
  have done : RecvDataThread.start.run (fun pkgHead => pkgHead.bStartFlag = 255)
      [.received headAlone.bytes] = some ({ m_strRecvBuf := [], totalPkg := .empty },
        [.addPackage { nCmd := 7, nLength := 0, pszJson := [] }] ++ [] ++ []) :=
    run_of_drainsAll waits (by decide) (.cons drains .nil)
  have reached : RecvDataThread.start.run (fun pkgHead => pkgHead.bStartFlag = 255) [] =
      some (.start, []) := rfl
  refine ⟨_, _, run_division reached ?_ ?_ ?_ done ?_, ?_⟩
  · decide
  · decide
  · decide
  · decide
  · decide

end MyBookSources.PackageFragments
