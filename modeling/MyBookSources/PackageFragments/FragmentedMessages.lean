import MyBookSources.PackageFragments.PackageStream

/-! # Messages that come in fragments

The fragments of a message are numbered from 0, each head says how many there are, and a message
of one package may have the total 0. The thread hands on every message once, whole and in order,
whatever it has put together before and however the bytes come in.
-/

namespace MyBookSources.PackageFragments

structure Fragment where
  pkgHead : NtPkgHead
  body : Bytes

def Fragment.bytes (fragment : Fragment) : Bytes := fragment.pkgHead.bytes ++ fragment.body

structure Message where
  wCmd : UInt16
  fragments : List Fragment

namespace Message

def bytes (message : Message) : Bytes := message.fragments.flatMap Fragment.bytes

def body (message : Message) : Bytes := message.fragments.flatMap Fragment.body

def proxyPackage (message : Message) : ProxyPackage where
  nCmd := message.wCmd
  nLength := UInt32.ofNat message.body.length
  pszJson := message.body

end Message

variable {CheckPkgHead : NtPkgHead → Bool}

structure Fits (CheckPkgHead : NtPkgHead → Bool) (message : Message) (fragment : Fragment) :
    Prop where
  accepted : CheckPkgHead fragment.pkgHead = true
  wLen : fragment.pkgHead.wLen.toNat = headSize + fragment.body.length
  wCmd : fragment.pkgHead.wCmd = message.wCmd
  wTotal : fragment.pkgHead.wTotal.toNat = message.fragments.length ∨
    (message.fragments.length = 1 ∧ fragment.pkgHead.wTotal = 0)

structure Fragmented (CheckPkgHead : NtPkgHead → Bool) (message : Message) : Prop where
  some : message.fragments ≠ []
  fits : ∀ fragment ∈ message.fragments, Fits CheckPkgHead message fragment
  wCurSeq : message.fragments.map (fun fragment => fragment.pkgHead.wCurSeq.toNat) =
    List.range message.fragments.length

def TotalPkg.ofBody (body : Bytes) : TotalPkg where
  strTotalPkg := body
  uTotalPkgLen := UInt32.ofNat body.length

theorem TotalPkg.appendBody_ofBody {totalPkg : TotalPkg} {uCurSeq : UInt16} {before : Bytes}
    (base : (if uCurSeq = 0 then empty else totalPkg) = ofBody before) (body : Bytes) :
    totalPkg.appendBody uCurSeq body = ofBody (before ++ body) := by
  rw [appendBody, base, ofBody, ofBody, List.length_append, UInt32.ofNat_add]

theorem TotalPkg.proxyPackage_ofBody {body : Bytes} (small : body.length < 2 ^ 32)
    (uCmd : UInt16) : (ofBody body).proxyPackage uCmd =
      some { nCmd := uCmd, nLength := UInt32.ofNat body.length, pszJson := body } := by
  have length : (UInt32.ofNat body.length).toNat = body.length := by
    rw [UInt32.toNat_ofNat', Nat.mod_eq_of_lt small]
  rw [proxyPackage, ofBody]
  dsimp only
  rw [length, if_neg (Nat.lt_irrefl _), Bytes.resize, Nat.sub_self, List.replicate_zero,
    List.append_nil, List.take_length]

theorem span_fragment {message : Message} {fragment : Fragment}
    (fits : Fits CheckPkgHead message fragment) (later : Bytes) :
    span CheckPkgHead (fragment.bytes ++ later) = .takes fragment.bytes.length := by
  have size : fragment.bytes.length = headSize + fragment.body.length := by
    rw [Fragment.bytes, List.length_append, NtPkgHead.length_bytes]
  have head : NtPkgHead.read (fragment.bytes ++ later) = fragment.pkgHead := by
    rw [Fragment.bytes, List.append_assoc, NtPkgHead.read_bytes]
  rw [span, head, List.length_append, size, fits.accepted, fits.wLen,
    if_neg (show ¬ headSize + fragment.body.length + later.length < headSize by omega)]
  simp

theorem takePkg_fragment {message : Message} {fragment : Fragment}
    (fits : Fits CheckPkgHead message fragment)
    (inside : fragment.pkgHead.wCurSeq.toNat < message.fragments.length)
    {totalPkg : TotalPkg} {before : Bytes}
    (base : (if fragment.pkgHead.wCurSeq = 0 then .empty else totalPkg) = TotalPkg.ofBody before)
    (small : (before ++ fragment.body).length < 2 ^ 32) (later : Bytes) :
    (packageReader CheckPkgHead).take totalPkg
        ((fragment.bytes ++ later).take fragment.bytes.length) =
      some (TotalPkg.ofBody (before ++ fragment.body),
        if fragment.pkgHead.wCurSeq.toNat + 1 = message.fragments.length then
          [.addPackage { nCmd := message.wCmd,
                         nLength := UInt32.ofNat (before ++ fragment.body).length,
                         pszJson := before ++ fragment.body }]
        else []) := by
  have head : NtPkgHead.read fragment.bytes = fragment.pkgHead := by
    rw [Fragment.bytes, NtPkgHead.read_bytes]
  have size : fragment.bytes.length = headSize + fragment.body.length := by
    rw [Fragment.bytes, List.length_append, NtPkgHead.length_bytes]
  have body : fragment.bytes.drop headSize = fragment.body := by
    rw [Fragment.bytes, ← NtPkgHead.length_bytes fragment.pkgHead, List.drop_left]
  have ends : (fragment.pkgHead.wTotal = 0 ∨
      fragment.pkgHead.wTotal.toNat = fragment.pkgHead.wCurSeq.toNat + 1) ↔
      fragment.pkgHead.wCurSeq.toNat + 1 = message.fragments.length := by
    rw [← UInt16.toNat_inj, UInt16.toNat_zero]
    rcases fits.wTotal with total | ⟨single, zero⟩
    · omega
    · rw [zero, UInt16.toNat_zero]
      omega
  rw [List.take_left]
  change totalPkg.takePkg (NtPkgHead.read fragment.bytes) fragment.bytes = _
  rw [TotalPkg.takePkg, head, if_neg (by omega), body, TotalPkg.appendBody_ofBody base]
  dsimp only
  rw [TotalPkg.proxyPackage_ofBody small, fits.wCmd, Option.map_some]
  by_cases last : fragment.pkgHead.wCurSeq.toNat + 1 = message.fragments.length
  · rw [if_pos last, if_pos (ends.mpr last)]
  · rw [if_neg last, if_neg fun ended => last (ends.mp ended)]

theorem drains_fragments {message : Message} {fragments : List Fragment} {i : Nat}
    (fits : ∀ fragment ∈ fragments, Fits CheckPkgHead message fragment)
    (wCurSeq : fragments.map (fun fragment => fragment.pkgHead.wCurSeq.toNat) =
      List.range' i fragments.length)
    (count : i + fragments.length = message.fragments.length) (some : fragments ≠ [])
    {totalPkg : TotalPkg} {before : Bytes}
    (base : (if i = 0 then .empty else totalPkg) = TotalPkg.ofBody before)
    (small : (before ++ fragments.flatMap Fragment.body).length < 2 ^ 32)
    {later rest : Bytes} {last : TotalPkg} {others : List Effect}
    (goesOn : (packageReader CheckPkgHead).Drains
      (TotalPkg.ofBody (before ++ fragments.flatMap Fragment.body)) later last rest others) :
    (packageReader CheckPkgHead).Drains totalPkg (fragments.flatMap Fragment.bytes ++ later) last
      rest (.addPackage { nCmd := message.wCmd,
                          nLength := UInt32.ofNat
                            (before ++ fragments.flatMap Fragment.body).length,
                          pszJson := before ++ fragments.flatMap Fragment.body } :: others) := by
  induction fragments generalizing i totalPkg before with
  | nil => exact absurd rfl some
  | cons fragment fragments induction =>
      rw [List.map_cons, List.length_cons, List.range'_succ, List.cons.injEq] at wCurSeq
      rcases List.forall_mem_cons.mp fits with ⟨fit, othersFit⟩
      rcases wCurSeq with ⟨number, numbers⟩
      rw [List.length_cons] at count
      simp only [List.flatMap_cons] at small goesOn ⊢
      rw [← List.append_assoc before] at small goesOn ⊢
      have zero : fragment.pkgHead.wCurSeq = 0 ↔ i = 0 := by
        rw [← UInt16.toNat_inj, number, UInt16.toNat_zero]
      have front : (before ++ fragment.body).length < 2 ^ 32 := by
        rw [List.length_append] at small
        omega
      have taken := takePkg_fragment fit (by omega) (by simpa only [zero] using base) front
        (fragments.flatMap Fragment.bytes ++ later)
      have takes := span_fragment fit (fragments.flatMap Fragment.bytes ++ later)
      rw [number] at taken
      rw [List.append_assoc fragment.bytes]
      cases fragments with
      | nil =>
          simp only [List.flatMap_nil, List.append_nil, List.nil_append] at goesOn takes taken ⊢
          rw [if_pos (by rw [← count]; rfl)] at taken
          refine .takes takes taken ?_
          rw [List.drop_left]
          exact goesOn
      | cons second fragments =>
          rw [if_neg (by rw [← count, List.length_cons]; omega)] at taken
          have behind := induction othersFit numbers (by omega) (by simp)
            (show (if i + 1 = 0 then .empty else TotalPkg.ofBody (before ++ fragment.body)) =
              TotalPkg.ofBody (before ++ fragment.body) from if_neg (by omega)) small goesOn
          refine .takes takes taken ?_
          rw [List.drop_left]
          exact behind

/-- There are fewer than 2^16 fragments, each of fewer than 2^16 bytes. -/
theorem body_length_lt {message : Message} (fragmented : Fragmented CheckPkgHead message) :
    message.body.length < 2 ^ 32 := by
  have each : ∀ fragments : List Fragment,
      (∀ fragment ∈ fragments, Fits CheckPkgHead message fragment) →
      (fragments.flatMap Fragment.body).length ≤ fragments.length * (2 ^ 16 - 1) := by
    intro fragments fits
    induction fragments with
    | nil => rfl
    | cons fragment fragments induction =>
        rcases List.forall_mem_cons.mp fits with ⟨fit, others⟩
        have bound := fragment.pkgHead.wLen.toNat_lt
        have rest := induction others
        rw [fit.wLen] at bound
        rw [List.flatMap_cons, List.length_append, List.length_cons]
        omega
  have count : message.fragments.length < 2 ^ 16 := by
    cases fragments : message.fragments with
    | nil => exact absurd fragments fragmented.some
    | cons fragment others =>
        have fit := fragmented.fits fragment (by rw [fragments]; exact List.mem_cons_self)
        have bound := fragment.pkgHead.wTotal.toNat_lt
        rw [← fragments]
        rcases fit.wTotal with total | ⟨single, _⟩ <;> omega
  have whole := each message.fragments fragmented.fits
  have small : message.fragments.length * (2 ^ 16 - 1) ≤ (2 ^ 16 - 1) * (2 ^ 16 - 1) :=
    Nat.mul_le_mul_right _ (by omega)
  change (message.fragments.flatMap Fragment.body).length < 2 ^ 32
  omega

theorem drains_messages {messages : List Message}
    (fragmented : ∀ message ∈ messages, Fragmented CheckPkgHead message) (totalPkg : TotalPkg) :
    ∃ last, (packageReader CheckPkgHead).Drains totalPkg (messages.flatMap Message.bytes) last []
      (messages.map fun message => .addPackage message.proxyPackage) := by
  induction messages generalizing totalPkg with
  | nil => exact ⟨totalPkg, .waits rfl⟩
  | cons message messages induction =>
      rcases List.forall_mem_cons.mp fragmented with ⟨first, others⟩
      rcases induction others (TotalPkg.ofBody message.body) with ⟨last, goesOn⟩
      have numbers := first.wCurSeq
      rw [List.range_eq_range'] at numbers
      refine ⟨last, ?_⟩
      exact drains_fragments first.fits numbers (Nat.zero_add _) first.some
        (show (if 0 = 0 then .empty else totalPkg) = TotalPkg.ofBody [] from rfl)
        (body_length_lt first) goesOn

/-- From an empty buffer, fragmented messages are handed on once, whole and in order, with their
lengths. Nothing is left in the buffer. -/
theorem messages_handed_on {messages : List Message}
    (fragmented : ∀ message ∈ messages, Fragmented CheckPkgHead message)
    {thread : RecvDataThread} (empty : thread.m_strRecvBuf = []) {turns : List Turn}
    (whole : .failed ∉ turns)
    (sent : turns.flatMap Turn.data = messages.flatMap Message.bytes) :
    ∃ last : RecvDataThread, last.m_strRecvBuf = [] ∧
      thread.run CheckPkgHead turns =
        some (last, messages.map fun message => .addPackage message.proxyPackage) ∧
      ∀ message ∈ messages, message.proxyPackage.nLength.toNat = message.body.length := by
  have waits : Waits CheckPkgHead thread := waits_of_empty empty
  rcases drains_messages fragmented thread.totalPkg with ⟨last, drains⟩
  have stream : thread.m_strRecvBuf ++ (turns.map Turn.data).flatten =
      messages.flatMap Message.bytes := by
    rw [empty, List.nil_append, ← List.flatMap_def, sent]
  rw [← stream, ← Draining.Reader.drainsAll_iff waits] at drains
  refine ⟨{ m_strRecvBuf := [], totalPkg := last }, rfl, run_of_drainsAll waits whole ?_, ?_⟩
  · exact drains
  · rintro message member
    have small := body_length_lt (fragmented message member)
    rw [Message.proxyPackage, UInt32.toNat_ofNat', Nat.mod_eq_of_lt small]

def inTwo : Message where
  wCmd := 7
  fragments :=
    [{ pkgHead := { headAlone with bFrag := 1, wLen := 22, wTotal := 2 }, body := [1, 2] },
      { pkgHead := { headAlone with bFrag := 1, wLen := 21, wTotal := 2, wCurSeq := 1 },
        body := [3] }]

theorem messages_handed_on_inTwo :
    ∃ last : RecvDataThread, RecvDataThread.start.run (fun pkgHead => pkgHead.bStartFlag = 255)
      [.received (inTwo.bytes.take 25), .idle, .received (inTwo.bytes.drop 25)] =
        some (last, [.addPackage { nCmd := 7, nLength := 3, pszJson := [1, 2, 3] }]) := by
  have fits : ∀ fragment ∈ inTwo.fragments,
      Fits (fun pkgHead => pkgHead.bStartFlag = 255) inTwo fragment := by
    rw [inTwo, List.forall_mem_cons, List.forall_mem_cons]
    refine ⟨?_, ?_, List.forall_mem_nil _⟩
    · exact { accepted := rfl, wLen := rfl, wCmd := rfl, wTotal := .inl rfl }
    · exact { accepted := rfl, wLen := rfl, wCmd := rfl, wTotal := .inl rfl }
  have fragmented : ∀ message ∈ [inTwo],
      Fragmented (fun pkgHead => pkgHead.bStartFlag = 255) message := by
    rintro message member
    rw [List.mem_singleton.mp member]
    exact { some := by simp [inTwo], fits := fits, wCurSeq := rfl }
  have empty : RecvDataThread.start.m_strRecvBuf = [] := rfl
  have sent : [Turn.received (inTwo.bytes.take 25), .idle, .received (inTwo.bytes.drop 25)].flatMap
      Turn.data = [inTwo].flatMap Message.bytes := by
    decide
  rcases messages_handed_on fragmented empty (by decide) sent with ⟨last, -, run, -⟩
  exact ⟨last, run⟩

end MyBookSources.PackageFragments
