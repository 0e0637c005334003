import MyBookSources.PackageFragments.PackageStream

/-! # Heads that are too short

The length in a head counts the head. A length below that makes the thread read behind the
package, so `CheckPkgHead` has to refuse it; then every package is read inside the buffer.
-/

namespace MyBookSources.PackageFragments

variable {CheckPkgHead : NtPkgHead → Bool}

/-- The length goes with the body, and the body with the bytes that have come in. -/
structure Counted (received : Nat) (thread : RecvDataThread) : Prop where
  uTotalPkgLen : thread.totalPkg.uTotalPkgLen.toNat = thread.totalPkg.strTotalPkg.length
  bound : thread.totalPkg.strTotalPkg.length + thread.m_strRecvBuf.length ≤ received

theorem Counted.appendBody {received : Nat} {thread : RecvDataThread}
    (counted : Counted received thread) (small : received < 2 ^ 32) (uCurSeq : UInt16)
    {count : Nat} (whole : headSize ≤ count) (inside : count ≤ thread.m_strRecvBuf.length) :
    Counted received
      { m_strRecvBuf := thread.m_strRecvBuf.drop count
        totalPkg := thread.totalPkg.appendBody uCurSeq
          ((thread.m_strRecvBuf.take count).drop headSize) } := by
  have body : ((thread.m_strRecvBuf.take count).drop headSize).length = count - headSize := by
    rw [List.length_drop, List.length_take, Nat.min_eq_left inside]
  have bound := counted.bound
  have base : ∀ totalPkg : TotalPkg,
      totalPkg.uTotalPkgLen.toNat = totalPkg.strTotalPkg.length →
      totalPkg.strTotalPkg.length ≤ thread.totalPkg.strTotalPkg.length →
      (totalPkg.uTotalPkgLen + UInt32.ofNat (count - headSize)).toNat =
          totalPkg.strTotalPkg.length + (count - headSize) ∧
        totalPkg.strTotalPkg.length + (count - headSize) +
          (thread.m_strRecvBuf.length - count) ≤ received := by
    intro totalPkg length shorter
    rw [UInt32.toNat_add, UInt32.toNat_ofNat', length]
    omega
  constructor
  · rw [TotalPkg.appendBody, List.length_append, body]
    split
    · exact (base .empty rfl (Nat.zero_le _)).1
    · exact (base thread.totalPkg counted.uTotalPkgLen (Nat.le_refl _)).1
  · rw [TotalPkg.appendBody, List.length_append, body, List.length_drop]
    split
    · exact (base .empty rfl (Nat.zero_le _)).2
    · exact (base thread.totalPkg counted.uTotalPkgLen (Nat.le_refl _)).2

theorem Counted.takePkg {received : Nat} {thread : RecvDataThread}
    (counted : Counted received thread) (small : received < 2 ^ 32) (pkgHead : NtPkgHead)
    {count : Nat} (whole : headSize ≤ count) (inside : count ≤ thread.m_strRecvBuf.length) :
    ∃ next effects, thread.totalPkg.takePkg pkgHead (thread.m_strRecvBuf.take count) =
        some (next, effects) ∧
      Counted received { m_strRecvBuf := thread.m_strRecvBuf.drop count, totalPkg := next } := by
  have appended := counted.appendBody small pkgHead.wCurSeq whole inside
  have long : ¬ (thread.m_strRecvBuf.take count).length < headSize := by
    rw [List.length_take]
    omega
  rw [TotalPkg.takePkg, if_neg long]
  dsimp only
  split
  · rw [TotalPkg.proxyPackage, if_neg (Nat.not_lt.mpr (Nat.le_of_eq appended.uTotalPkgLen.symm))]
    exact ⟨_, _, rfl, appended⟩
  · exact ⟨_, _, rfl, appended⟩

section

variable (refused : ∀ pkgHead, CheckPkgHead pkgHead = true → headSize ≤ pkgHead.wLen.toNat)

include refused

theorem Counted.innerLoop {received : Nat} {totalPkg : TotalPkg} {m_strRecvBuf : Bytes}
    (counted : Counted received { m_strRecvBuf := m_strRecvBuf, totalPkg := totalPkg })
    (small : received < 2 ^ 32) :
    ∃ next effects, RecvDataThread.innerLoop CheckPkgHead totalPkg m_strRecvBuf =
      some (next, effects) ∧ Counted received next := by
  induction size : m_strRecvBuf.length using Nat.strongRecOn generalizing totalPkg m_strRecvBuf with
  | ind length induction =>
      rw [innerLoop_eq]
      split
      · exact ⟨_, _, rfl, counted⟩
      · have bound := counted.bound
        refine ⟨_, _, rfl, { uTotalPkgLen := counted.uTotalPkgLen, bound := ?_ }⟩
        exact Nat.le_trans (Nat.add_le_add_left (Nat.zero_le _) _) bound
      · next count takes =>
          rcases span_takes takes with ⟨-, accepted, rfl, inside⟩
          have whole := refused _ accepted
          rcases counted.takePkg small (NtPkgHead.read m_strRecvBuf) whole inside with
            ⟨next, effects, taken, kept⟩
          have shorter : (m_strRecvBuf.drop (NtPkgHead.read m_strRecvBuf).wLen.toNat).length <
              length := by
            rw [List.length_drop]
            rw [headSize] at whole
            omega
          rcases induction _ shorter kept rfl with ⟨last, others, goesOn, counted⟩
          change ∃ next effects, Option.bind (TotalPkg.takePkg totalPkg _ _) _ = _ ∧ _
          rw [takePkg_front, taken, Option.bind_some, goesOn]
          exact ⟨_, _, rfl, counted⟩

theorem Counted.outerTurn {received : Nat} {thread : RecvDataThread}
    (counted : Counted received thread) {turn : Turn}
    (small : received + turn.data.length < 2 ^ 32) :
    ∃ next effects, thread.outerTurn CheckPkgHead turn = some (next, effects) ∧
      Counted (received + turn.data.length) next := by
  have bound := counted.bound
  cases turn with
  | idle => exact ⟨_, _, rfl, counted⟩
  | received data =>
      apply Counted.innerLoop refused _ small
      refine { uTotalPkgLen := counted.uTotalPkgLen, bound := ?_ }
      dsimp only
      rw [List.length_append, ← Nat.add_assoc]
      exact Nat.add_le_add_right bound _
  | failed =>
      refine ⟨_, _, rfl, { uTotalPkgLen := counted.uTotalPkgLen, bound := ?_ }⟩
      exact Nat.le_trans (Nat.add_le_add_left (Nat.zero_le _) _) bound

theorem Counted.run {received : Nat} {thread : RecvDataThread} (counted : Counted received thread)
    {turns : List Turn} (small : received + (turns.flatMap Turn.data).length < 2 ^ 32) :
    (thread.run CheckPkgHead turns).isSome = true := by
  induction turns generalizing received thread with
  | nil => rfl
  | cons turn turns induction =>
      rw [List.flatMap_cons, List.length_append] at small
      have front : received + turn.data.length < 2 ^ 32 := by omega
      rcases counted.outerTurn refused front with ⟨next, effects, turned, kept⟩
      have goesOn := induction kept (by omega)
      rcases Option.isSome_iff_exists.mp goesOn with ⟨⟨last, others⟩, run⟩
      rw [RecvDataThread.run, turned, Option.bind_eq_bind, Option.bind_some]
      dsimp only
      rw [run]
      rfl

end

/-- A head alone, whose length is below its own. -/
theorem run_short {pkgHead : NtPkgHead} (accepted : CheckPkgHead pkgHead = true)
    (short : pkgHead.wLen.toNat < headSize) :
    RecvDataThread.start.run CheckPkgHead [.received pkgHead.bytes] = none := by
  have head : NtPkgHead.read pkgHead.bytes = pkgHead := by
    rw [← List.append_nil pkgHead.bytes, NtPkgHead.read_bytes]
  have front : span CheckPkgHead pkgHead.bytes = .takes pkgHead.wLen.toNat := by
    rw [span, head, accepted, NtPkgHead.length_bytes, if_neg (Nat.lt_irrefl _), if_neg (by simp),
      if_neg (by omega)]
  have outside : ∀ totalPkg : TotalPkg, (packageReader CheckPkgHead).take totalPkg
      (pkgHead.bytes.take pkgHead.wLen.toNat) = none := by
    intro totalPkg
    change totalPkg.takePkg (NtPkgHead.read _) _ = none
    rw [TotalPkg.takePkg, if_pos (by rw [List.length_take]; omega)]
  have turned : RecvDataThread.start.outerTurn CheckPkgHead (.received pkgHead.bytes) = none := by
    change RecvDataThread.innerLoop CheckPkgHead .empty pkgHead.bytes = none
    rw [innerLoop_eq, front]
    dsimp only
    rw [outside, Option.bind_none]
  rw [RecvDataThread.run, turned]
  rfl

/-- No run reads outside exactly if no head is accepted with a length below its own. -/
theorem stays_inside_iff :
    (∀ turns : List Turn, (turns.flatMap Turn.data).length < 2 ^ 32 →
        (RecvDataThread.start.run CheckPkgHead turns).isSome = true) ↔
      ∀ pkgHead, CheckPkgHead pkgHead = true → headSize ≤ pkgHead.wLen.toNat := by
  constructor
  · intro inside pkgHead accepted
    by_contra short
    have run := inside [.received pkgHead.bytes] (by
      rw [List.flatMap_singleton, Turn.data, NtPkgHead.length_bytes]
      decide)
    rw [run_short accepted (Nat.lt_of_not_le short)] at run
    cases run
  · intro refused turns small
    have counted : Counted 0 RecvDataThread.start :=
      { uTotalPkgLen := rfl, bound := Nat.le_refl _ }
    exact counted.run refused (by omega)

end MyBookSources.PackageFragments
