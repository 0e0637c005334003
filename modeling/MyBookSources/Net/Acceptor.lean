import Mathlib.Logic.Function.Basic
import MyBookSources.Foundation.Execution

/-! # The acceptor and its idle descriptor

When the process has no descriptor left, `net::Acceptor` closes one that it keeps for that, accepts
the connection with it, closes the connection and opens the idle descriptor again. In between the
other threads go on opening and closing descriptors, and take the free one if they come first.
-/

namespace MyBookSources.Net

inductive Owner
  | listener
  | idle
  | refused
  | connection (id : Nat)
  | other
  deriving DecidableEq

/-- What has become of a connection that left the queue of the system. -/
inductive Fate
  | handedOver
  | refused
  | dropped
  deriving DecidableEq

/-- Where the loop is in `handleRead`: `failed` is behind the first `accept`, and the others are
in front of the calls of the branch for `EMFILE`. -/
inductive AcceptorPlace
  | outside
  | failed
  | closeIdle
  | acceptAgain
  | closeRefused
  | openIdle
  | destroyed
  deriving DecidableEq

/-- A process with an acceptor. `pending` are the connections that have arrived and wait, `taken`
those that have left the queue, in order. `closed` is what the acceptor's calls of `close` found
under their descriptors. -/
structure Acceptor where
  limit : Nat
  owner : Nat → Option Owner
  arrived : Nat
  pending : List Nat
  taken : List (Nat × Fate)
  closed : List (Option Owner)
  listenFd : Nat
  /-- `none` is a negative descriptor. -/
  idleFd : Option Nat
  hasCallback : Bool
  place : AcceptorPlace

namespace Acceptor

/-- `others` are the descriptors of the process before. -/
def create (limit : Nat) (others : Nat → Bool) (listenFd : Nat) (idleFd : Option Nat)
    (hasCallback : Bool) : Acceptor where
  limit := limit
  owner fd :=
    if fd = listenFd then some .listener
    else if idleFd = some fd then some .idle
    else if others fd then some .other
    else none
  arrived := 0
  pending := []
  taken := []
  closed := []
  listenFd := listenFd
  idleFd := idleFd
  hasCallback := hasCallback
  place := .outside

variable (acceptor : Acceptor)

/-- The system gives a call this descriptor. -/
def Gives (fd : Nat) : Prop := fd < acceptor.limit ∧ acceptor.owner fd = none

instance (fd : Nat) : Decidable (acceptor.Gives fd) :=
  inferInstanceAs (Decidable (_ ∧ _))

def assign (fd : Nat) (owner : Option Owner) : Acceptor :=
  { acceptor with owner := Function.update acceptor.owner fd owner }

/-- A call of `close` by the acceptor. -/
def close : Option Nat → Acceptor
  | none => acceptor
  | some fd =>
      { acceptor.assign fd none with closed := acceptor.closed ++ [acceptor.owner fd] }

/-- What `accept` gives. An error may cost the connection that was the first to wait. -/
inductive Accepted
  | connection (fd : Nat)
  | error (dropped : Bool)
  deriving DecidableEq

def leave (fate : Fate) : Acceptor :=
  match acceptor.pending with
  | [] => acceptor
  | id :: pending => { acceptor with pending := pending, taken := acceptor.taken ++ [(id, fate)] }

/-- `newConnectionCallback_(connfd, peerAddr)` or `sockets::close(connfd)`. -/
def handOver (id fd : Nat) : Acceptor :=
  if acceptor.hasCallback then (acceptor.leave .handedOver).assign fd (some (.connection id))
  else ((acceptor.leave .refused).assign fd (some .refused)).close (some fd)

/-- The first call in `handleRead`, with what follows it on success. -/
def accept : Accepted → Option Acceptor
  | .connection fd =>
      match acceptor.pending with
      | [] => none
      | id :: _ => if acceptor.Gives fd then some (acceptor.handOver id fd) else none
  | .error dropped =>
      some { (if dropped then acceptor.leave .dropped else acceptor) with place := .failed }

/-- `idleFd_ = ::accept(acceptSocket_.fd(), NULL, NULL);` -/
def acceptAgain : Accepted → Option Acceptor
  | .connection fd =>
      if acceptor.pending ≠ [] ∧ acceptor.Gives fd then
        some { (acceptor.leave .refused).assign fd (some .refused) with
          idleFd := some fd, place := .closeRefused }
      else none
  | .error dropped =>
      some { (if dropped then acceptor.leave .dropped else acceptor) with
        idleFd := none, place := .closeRefused }

/-- `idleFd_ = ::open("/dev/null", O_RDONLY | O_CLOEXEC);` -/
def openIdle : Option Nat → Option Acceptor
  | none => some { acceptor with idleFd := none, place := .outside }
  | some fd =>
      if acceptor.Gives fd then
        some { acceptor.assign fd (some .idle) with idleFd := some fd, place := .outside }
      else none

/-- The destructor, and that of `acceptSocket_`. -/
def destroy : Acceptor :=
  let closed := acceptor.close acceptor.idleFd
  { closed.close (some closed.listenFd) with place := .destroyed }

def otherCloses (fd : Nat) : Option Acceptor :=
  match acceptor.owner fd with
  | some .other | some (.connection _) => some (acceptor.assign fd none)
  | _ => none

inductive Label
  | accept (accepted : Accepted)
  /-- `errno == EMFILE`, whatever `errno` is by then. -/
  | test (isEMFILE : Bool)
  | closeIdle
  | acceptAgain (accepted : Accepted)
  | closeRefused
  | openIdle (fd : Option Nat)
  | destroy
  | arrive
  | otherOpens (fd : Nat)
  | otherCloses (fd : Nat)
  deriving DecidableEq

def Label.place : Label → Option AcceptorPlace
  | .accept _ | .destroy => some .outside
  | .test _ => some .failed
  | .closeIdle => some .closeIdle
  | .acceptAgain _ => some .acceptAgain
  | .closeRefused => some .closeRefused
  | .openIdle _ => some .openIdle
  | .arrive | .otherOpens _ | .otherCloses _ => none

def effect : Label → Option Acceptor
  | .accept accepted => acceptor.accept accepted
  | .test isEMFILE => some { acceptor with place := if isEMFILE then .closeIdle else .outside }
  | .closeIdle => some { acceptor.close acceptor.idleFd with place := .acceptAgain }
  | .acceptAgain accepted => acceptor.acceptAgain accepted
  | .closeRefused => some { acceptor.close acceptor.idleFd with place := .openIdle }
  | .openIdle fd => acceptor.openIdle fd
  | .destroy => some acceptor.destroy
  | .arrive =>
      some { acceptor with
        arrived := acceptor.arrived + 1
        pending := acceptor.pending ++ [acceptor.arrived] }
  | .otherOpens fd =>
      if acceptor.Gives fd then some (acceptor.assign fd (some .other)) else none
  | .otherCloses fd => acceptor.otherCloses fd

def step (label : Label) : Option Acceptor :=
  if label.place = none ∨ label.place = some acceptor.place then acceptor.effect label else none

end Acceptor

/-- The acceptor, the system and the other threads of the process, in any order. -/
def acceptorMachine : Machine Acceptor Acceptor.Label :=
  .ofPartial Acceptor.step

namespace Acceptor

/-! ## Descriptors -/

/-- A descriptor that is for the acceptor to close. -/
def Mine (what : Owner) : Prop := what = .listener ∨ what = .idle ∨ what = .refused

/-- What `idleFd_` stands for, between the calls that change it. -/
def holds : AcceptorPlace → Option Owner
  | .outside | .failed | .closeIdle => some .idle
  | .closeRefused => some .refused
  | .acceptAgain | .openIdle | .destroyed => none

variable {acceptor next : Acceptor}

/-- The acceptor knows each descriptor that it has to close, and has closed no other. -/
structure Sound (acceptor : Acceptor) : Prop where
  mine : ∀ fd what, Mine what → (acceptor.owner fd = some what ↔
    what = .listener ∧ acceptor.place ≠ .destroyed ∧ fd = acceptor.listenFd ∨
      holds acceptor.place = some what ∧ acceptor.idleFd = some fd)
  closed : ∀ what ∈ acceptor.closed, ∃ owner, what = some owner ∧ Mine owner
  queue : acceptor.taken.map Prod.fst ++ acceptor.pending = List.range acceptor.arrived

theorem owner_assign_some {fd : Nat} (gives : acceptor.Gives fd) (given : Owner) (other : Nat)
    (what : Owner) : (acceptor.assign fd (some given)).owner other = some what ↔
      acceptor.owner other = some what ∨ other = fd ∧ given = what := by
  rw [assign]
  dsimp only
  by_cases same : other = fd
  · rw [same, Function.update_self, gives.2]
    simp
  · rw [Function.update_of_ne same]
    simp [same]

theorem owner_assign_none (acceptor : Acceptor) (fd other : Nat) (what : Owner) :
    (acceptor.assign fd none).owner other = some what ↔
      acceptor.owner other = some what ∧ other ≠ fd := by
  rw [assign]
  dsimp only
  by_cases same : other = fd
  · rw [same, Function.update_self]
    simp
  · rw [Function.update_of_ne same]
    simp [same]

theorem leave_eq (acceptor : Acceptor) (fate : Fate) : acceptor.leave fate =
    { acceptor with
      pending := (acceptor.leave fate).pending
      taken := (acceptor.leave fate).taken } := by
  rw [leave]
  split
  · rfl
  · rfl

theorem Sound.leave (sound : acceptor.Sound) (fate : Fate) : (acceptor.leave fate).Sound := by
  have queue := sound.queue
  rw [Acceptor.leave]
  split
  · exact sound
  · next id pending waiting =>
      rw [waiting] at queue
      refine ⟨sound.mine, sound.closed, ?_⟩
      dsimp only
      rw [List.map_append, List.append_assoc]
      exact queue

theorem Sound.goes (sound : acceptor.Sound) {place : AcceptorPlace}
    (same : holds place = holds acceptor.place) (before : acceptor.place ≠ .destroyed)
    (after : place ≠ .destroyed) : Sound { acceptor with place := place } := by
  refine ⟨?_, sound.closed, sound.queue⟩
  intro fd what mine
  dsimp only
  rw [sound.mine fd what mine, same]
  simp [before, after]

theorem Sound.close (sound : acceptor.Sound) {what : Owner}
    (held : holds acceptor.place = some what) {place : AcceptorPlace}
    (nothing : holds place = none) (after : place ≠ .destroyed) :
    Sound { acceptor.close acceptor.idleFd with place := place } := by
  have before : acceptor.place ≠ .destroyed := by
    intro gone
    rw [gone] at held
    cases held
  have idle : what = .idle ∨ what = .refused := by
    revert held
    cases acceptor.place <;> simp [holds] <;> intro same <;> simp [← same]
  have mine : Mine what := .inr idle
  cases idleFd : acceptor.idleFd with
  | none =>
      refine ⟨?_, sound.closed, sound.queue⟩
      intro fd owner mine
      dsimp only [Acceptor.close]
      rw [sound.mine fd owner mine, nothing, idleFd]
      simp [before, after]
  | some own =>
      have here := (sound.mine own what mine).mpr (.inr ⟨held, idleFd⟩)
      have apart : acceptor.listenFd ≠ own := by
        intro same
        have listener := (sound.mine own .listener (.inl rfl)).mpr (.inl ⟨rfl, before, same.symm⟩)
        rw [here] at listener
        rcases idle with rfl | rfl
        · cases listener
        · cases listener
      refine ⟨?_, ?_, sound.queue⟩
      · intro fd owner mine'
        dsimp only [Acceptor.close]
        rw [owner_assign_none, sound.mine fd owner mine', nothing, idleFd]
        constructor
        · rintro ⟨⟨same, _, there⟩ | ⟨_, there⟩, away⟩
          · exact .inl ⟨same, after, there⟩
          · exact absurd (Option.some.inj there).symm away
        · rintro (⟨same, _, there⟩ | ⟨none, _⟩)
          · exact ⟨.inl ⟨same, before, there⟩, there ▸ apart⟩
          · cases none
      · intro closed member
        rcases List.mem_append.mp member with earlier | last
        · exact sound.closed closed earlier
        · rw [List.mem_singleton.mp last]
          exact ⟨what, here, mine⟩

theorem Sound.take (sound : acceptor.Sound) (nothing : holds acceptor.place = none)
    (before : acceptor.place ≠ .destroyed) {fd : Nat} (gives : acceptor.Gives fd) {what : Owner}
    {place : AcceptorPlace} (held : holds place = some what) (after : place ≠ .destroyed) :
    Sound { acceptor.assign fd (some what) with idleFd := some fd, place := place } := by
  refine ⟨?_, sound.closed, sound.queue⟩
  intro other owner mine
  dsimp only
  rw [owner_assign_some gives, sound.mine other owner mine, nothing, held]
  constructor
  · rintro ((⟨same, _, there⟩ | ⟨none, _⟩) | ⟨rfl, rfl⟩)
    · exact .inl ⟨same, after, there⟩
    · cases none
    · exact .inr ⟨rfl, rfl⟩
  · rintro (⟨same, _, there⟩ | ⟨same, there⟩)
    · exact .inl (.inl ⟨same, before, there⟩)
    · exact .inr ⟨(Option.some.inj there).symm, Option.some.inj same⟩

theorem Sound.fail (sound : acceptor.Sound) (nothing : holds acceptor.place = none)
    (before : acceptor.place ≠ .destroyed) {place : AcceptorPlace} (after : place ≠ .destroyed) :
    Sound { acceptor with idleFd := none, place := place } := by
  refine ⟨?_, sound.closed, sound.queue⟩
  intro fd owner mine
  dsimp only
  rw [sound.mine fd owner mine, nothing]
  simp [before, after]

theorem Sound.given (sound : acceptor.Sound) {fd : Nat} (gives : acceptor.Gives fd)
    {what : Owner} (foreign : ¬ Mine what) : (acceptor.assign fd (some what)).Sound := by
  refine ⟨?_, sound.closed, sound.queue⟩
  intro other owner mine
  rw [owner_assign_some gives, sound.mine other owner mine]
  constructor
  · rintro (same | ⟨_, rfl⟩)
    · exact same
    · exact absurd mine foreign
  · exact .inl

theorem Sound.freed (sound : acceptor.Sound) {fd : Nat} {what : Owner}
    (here : acceptor.owner fd = some what) (foreign : ¬ Mine what) :
    (acceptor.assign fd none).Sound := by
  refine ⟨?_, sound.closed, sound.queue⟩
  intro other owner mine
  have kept : acceptor.owner other = some owner → other ≠ fd := by
    rintro there rfl
    rw [here] at there
    cases there
    exact foreign mine
  rw [owner_assign_none]
  constructor
  · rintro ⟨there, _⟩
    exact (sound.mine other owner mine).mp there
  · intro known
    have there := (sound.mine other owner mine).mpr known
    exact ⟨there, kept there⟩

theorem Sound.refuse (sound : acceptor.Sound) {fd : Nat} (gives : acceptor.Gives fd) :
    ((acceptor.assign fd (some .refused)).close (some fd)).Sound := by
  have back : Function.update (Function.update acceptor.owner fd (some .refused)) fd none =
      acceptor.owner := by
    rw [Function.update_idem, ← gives.2, Function.update_eq_self]
  refine ⟨?_, ?_, sound.queue⟩
  · dsimp only [Acceptor.close, assign]
    rw [back]
    exact sound.mine
  · intro closed member
    rcases List.mem_append.mp member with earlier | last
    · exact sound.closed closed earlier
    · rw [List.mem_singleton.mp last]
      exact ⟨.refused, Function.update_self _ _ _, .inr (.inr rfl)⟩

theorem Sound.closeListener (sound : acceptor.Sound) (nothing : holds acceptor.place = none)
    (before : acceptor.place ≠ .destroyed) :
    Sound { acceptor.close (some acceptor.listenFd) with place := .destroyed } := by
  have here := (sound.mine acceptor.listenFd .listener (.inl rfl)).mpr (.inl ⟨rfl, before, rfl⟩)
  refine ⟨?_, ?_, sound.queue⟩
  · intro fd owner mine
    dsimp only [Acceptor.close]
    rw [owner_assign_none, sound.mine fd owner mine, nothing, holds]
    constructor
    · rintro ⟨⟨_, _, there⟩ | ⟨none, _⟩, away⟩
      · exact absurd there away
      · cases none
    · rintro (⟨_, alive, _⟩ | ⟨none, _⟩)
      · exact absurd rfl alive
      · cases none
  · intro closed member
    rcases List.mem_append.mp member with earlier | last
    · exact sound.closed closed earlier
    · rw [List.mem_singleton.mp last]
      exact ⟨.listener, here, .inl rfl⟩

theorem gives_leave (fate : Fate) (fd : Nat) :
    (acceptor.leave fate).Gives fd ↔ acceptor.Gives fd := by
  rw [leave_eq]
  rfl

theorem Sound.leaveIf (sound : acceptor.Sound) (dropped : Bool) :
    Sound (if dropped then acceptor.leave .dropped else acceptor) := by
  split
  · exact sound.leave .dropped
  · exact sound

theorem place_leaveIf (dropped : Bool) :
    (if dropped then acceptor.leave .dropped else acceptor).place = acceptor.place := by
  split
  · rw [leave_eq]
  · rfl

theorem accept_sound (sound : acceptor.Sound) (outside : acceptor.place = .outside)
    {accepted : Accepted} (taken : acceptor.accept accepted = some next) : next.Sound := by
  cases accepted with
  | connection fd =>
      rw [accept] at taken
      split at taken
      · cases taken
      · split at taken
        · next gives =>
            cases taken
            rw [handOver]
            split
            · apply (sound.leave .handedOver).given ((gives_leave _ _).mpr gives)
              simp [Mine]
            · exact (sound.leave .refused).refuse ((gives_leave _ _).mpr gives)
        · cases taken
  | error dropped =>
      cases taken
      apply (sound.leaveIf dropped).goes
      · rw [place_leaveIf, outside]
        rfl
      · rw [place_leaveIf, outside]
        nofun
      · nofun

theorem acceptAgain_sound (sound : acceptor.Sound) (here : acceptor.place = .acceptAgain)
    {accepted : Accepted} (taken : acceptor.acceptAgain accepted = some next) : next.Sound := by
  have nothing : holds acceptor.place = none := by
    rw [here]
    rfl
  have alive : acceptor.place ≠ .destroyed := by
    rw [here]
    nofun
  cases accepted with
  | connection fd =>
      rw [acceptAgain] at taken
      split at taken
      · next gives =>
          cases taken
          apply (sound.leave .refused).take
          · rw [leave_eq]
            exact nothing
          · rw [leave_eq]
            exact alive
          · exact (gives_leave _ _).mpr gives.2
          · rfl
          · nofun
      · cases taken
  | error dropped =>
      cases taken
      apply (sound.leaveIf dropped).fail
      · rw [place_leaveIf]
        exact nothing
      · rw [place_leaveIf]
        exact alive
      · nofun

theorem openIdle_sound (sound : acceptor.Sound) (here : acceptor.place = .openIdle)
    {fd : Option Nat} (taken : acceptor.openIdle fd = some next) : next.Sound := by
  have nothing : holds acceptor.place = none := by
    rw [here]
    rfl
  have alive : acceptor.place ≠ .destroyed := by
    rw [here]
    nofun
  cases fd with
  | none =>
      cases taken
      exact sound.fail nothing alive nofun
  | some fd =>
      rw [openIdle] at taken
      split at taken
      · next gives =>
          cases taken
          exact sound.take nothing alive gives rfl nofun
      · cases taken

theorem destroy_sound (sound : acceptor.Sound) (outside : acceptor.place = .outside) :
    acceptor.destroy.Sound := by
  have held : holds acceptor.place = some .idle := by
    rw [outside]
    rfl
  have between : Sound { acceptor.close acceptor.idleFd with place := .openIdle } :=
    sound.close held rfl nofun
  exact between.closeListener rfl nofun

theorem otherCloses_sound (sound : acceptor.Sound) {fd : Nat}
    (taken : acceptor.otherCloses fd = some next) : next.Sound := by
  rw [otherCloses] at taken
  split at taken
  · next here =>
      cases taken
      exact sound.freed here (by simp [Mine])
  · next id here =>
      cases taken
      exact sound.freed here (by simp [Mine])
  · cases taken

theorem step_sound {label : Label} (sound : acceptor.Sound)
    (taken : acceptor.step label = some next) : next.Sound := by
  rw [step] at taken
  split at taken
  · next here =>
      cases label with
      | accept accepted =>
          have place : AcceptorPlace.outside = acceptor.place := by simpa [Label.place] using here
          exact accept_sound sound place.symm taken
      | test isEMFILE =>
          have place : AcceptorPlace.failed = acceptor.place := by simpa [Label.place] using here
          cases taken
          apply sound.goes
          · rw [← place]
            cases isEMFILE with
            | true => rfl
            | false => rfl
          · rw [← place]
            nofun
          · cases isEMFILE with
            | true => nofun
            | false => nofun
      | closeIdle =>
          have place : AcceptorPlace.closeIdle = acceptor.place := by
            simpa [Label.place] using here
          have held : holds acceptor.place = some .idle := by
            rw [← place]
            rfl
          cases taken
          exact sound.close held rfl nofun
      | acceptAgain accepted =>
          have place : AcceptorPlace.acceptAgain = acceptor.place := by
            simpa [Label.place] using here
          exact acceptAgain_sound sound place.symm taken
      | closeRefused =>
          have place : AcceptorPlace.closeRefused = acceptor.place := by
            simpa [Label.place] using here
          have held : holds acceptor.place = some .refused := by
            rw [← place]
            rfl
          cases taken
          exact sound.close held rfl nofun
      | openIdle fd =>
          have place : AcceptorPlace.openIdle = acceptor.place := by
            simpa [Label.place] using here
          exact openIdle_sound sound place.symm taken
      | destroy =>
          have place : AcceptorPlace.outside = acceptor.place := by simpa [Label.place] using here
          cases taken
          exact destroy_sound sound place.symm
      | arrive =>
          cases taken
          refine ⟨sound.mine, sound.closed, ?_⟩
          dsimp only
          rw [← List.append_assoc, sound.queue, List.range_succ]
      | otherOpens fd =>
          rw [effect] at taken
          split at taken
          · next gives =>
              cases taken
              exact sound.given gives (by simp [Mine])
          · cases taken
      | otherCloses fd => exact otherCloses_sound sound taken
  · cases taken

/-! ## Refusals -/

/-- A connection that is accepted with the idle descriptor and not yet closed. -/
def inHand (acceptor : Acceptor) : Nat :=
  if acceptor.place = .closeRefused ∧ acceptor.idleFd ≠ none then 1 else 0

def refusals (acceptor : Acceptor) : Nat := (acceptor.taken.map Prod.snd).count .refused

def closedRefused (acceptor : Acceptor) : Nat := acceptor.closed.count (some .refused)

/-- Each refused connection has been closed, but the one in hand. -/
def Settled (acceptor : Acceptor) : Prop :=
  acceptor.closedRefused + acceptor.inHand = acceptor.refusals

theorem refusals_leave (waiting : acceptor.pending ≠ []) (fate : Fate) :
    (acceptor.leave fate).refusals = acceptor.refusals + if fate = .refused then 1 else 0 := by
  rw [leave]
  split
  · next none => exact absurd none waiting
  · rw [refusals, refusals, List.map_append, List.count_append]
    cases fate <;> rfl

theorem refusals_dropped (acceptor : Acceptor) :
    (acceptor.leave .dropped).refusals = acceptor.refusals := by
  rw [leave]
  split
  · rfl
  · rw [refusals, refusals, List.map_append, List.count_append]
    rfl

/-- What the acceptor closes is what `idleFd_` stands for. -/
theorem closedRefused_close (sound : acceptor.Sound) {what : Owner}
    (held : holds acceptor.place = some what) :
    (acceptor.close acceptor.idleFd).closedRefused =
      acceptor.closedRefused + if what = .refused ∧ acceptor.idleFd ≠ none then 1 else 0 := by
  cases idleFd : acceptor.idleFd with
  | none => simp [Acceptor.close]
  | some fd =>
      have idle : Mine what := by
        revert held
        cases acceptor.place <;> simp [holds, Mine] <;> intro same <;> simp [← same]
      have here := (sound.mine fd what idle).mpr (.inr ⟨held, idleFd⟩)
      rw [Acceptor.close, closedRefused, here, List.count_append]
      cases what <;> simp [closedRefused]

theorem refusals_close (acceptor : Acceptor) (fd : Option Nat) :
    (acceptor.close fd).refusals = acceptor.refusals := by
  cases fd with
  | none => rfl
  | some fd => rfl

theorem inHand_of_place (other : acceptor.place ≠ .closeRefused) : acceptor.inHand = 0 :=
  if_neg fun here => other here.1

theorem accept_settled (settled : acceptor.Settled) (outside : acceptor.place = .outside)
    {accepted : Accepted} (taken : acceptor.accept accepted = some next) : next.Settled := by
  have empty : acceptor.inHand = 0 := inHand_of_place (by rw [outside]; nofun)
  rw [Settled, empty] at settled
  cases accepted with
  | connection fd =>
      rw [accept] at taken
      split at taken
      · cases taken
      · next id pending waiting =>
          have some_waiting : acceptor.pending ≠ [] := by
            rw [waiting]
            nofun
          split at taken
          · cases taken
            rw [handOver]
            split
            · have none : (acceptor.leave .handedOver).inHand = 0 := by
                rw [leave_eq]
                exact empty
              have same : (acceptor.leave .handedOver).closedRefused = acceptor.closedRefused := by
                rw [leave_eq]
                rfl
              have count := refusals_leave some_waiting .handedOver
              change (acceptor.leave .handedOver).closedRefused +
                (acceptor.leave .handedOver).inHand = (acceptor.leave .handedOver).refusals
              rw [none, same, count]
              exact settled
            · have none : (acceptor.leave .refused).inHand = 0 := by
                rw [leave_eq]
                exact empty
              have closed : (((acceptor.leave .refused).assign fd (some .refused)).close
                  (some fd)).closedRefused = acceptor.closedRefused + 1 := by
                rw [leave_eq, Acceptor.close, closedRefused, List.count_append]
                simp [assign, closedRefused]
              have count := refusals_leave some_waiting .refused
              change _ + (acceptor.leave .refused).inHand = (acceptor.leave .refused).refusals
              rw [none, closed, count, ← settled]
              rfl
          · cases taken
  | error dropped =>
      cases taken
      cases dropped with
      | false => exact settled
      | true =>
          have same : (acceptor.leave .dropped).closedRefused = acceptor.closedRefused := by
            rw [leave_eq]
            rfl
          change (acceptor.leave .dropped).closedRefused + 0 = (acceptor.leave .dropped).refusals
          rw [same, refusals_dropped]
          exact settled

theorem acceptAgain_settled (settled : acceptor.Settled) (here : acceptor.place = .acceptAgain)
    {accepted : Accepted} (taken : acceptor.acceptAgain accepted = some next) : next.Settled := by
  have empty : acceptor.inHand = 0 := inHand_of_place (by rw [here]; nofun)
  rw [Settled, empty] at settled
  cases accepted with
  | connection fd =>
      rw [acceptAgain] at taken
      split at taken
      · next gives =>
          cases taken
          have same : (acceptor.leave .refused).closedRefused = acceptor.closedRefused := by
            rw [leave_eq]
            rfl
          have count := refusals_leave gives.1 .refused
          change (acceptor.leave .refused).closedRefused + 1 = (acceptor.leave .refused).refusals
          rw [same, count, ← settled]
          rfl
      · cases taken
  | error dropped =>
      cases taken
      cases dropped with
      | false => exact settled
      | true =>
          have same : (acceptor.leave .dropped).closedRefused = acceptor.closedRefused := by
            rw [leave_eq]
            rfl
          change (acceptor.leave .dropped).closedRefused + 0 = (acceptor.leave .dropped).refusals
          rw [same, refusals_dropped]
          exact settled

theorem destroy_settled (sound : acceptor.Sound) (settled : acceptor.Settled)
    (outside : acceptor.place = .outside) : acceptor.destroy.Settled := by
  have empty : acceptor.inHand = 0 := inHand_of_place (by rw [outside]; nofun)
  have held : holds acceptor.place = some .idle := by
    rw [outside]
    rfl
  have between : Sound { acceptor.close acceptor.idleFd with place := .openIdle } :=
    sound.close held rfl nofun
  have listener : (acceptor.close acceptor.idleFd).owner
      (acceptor.close acceptor.idleFd).listenFd = some .listener :=
    (between.mine _ .listener (.inl rfl)).mpr (.inl ⟨rfl, nofun, rfl⟩)
  have idle := closedRefused_close sound held
  have closed : acceptor.destroy.closedRefused =
      (acceptor.close acceptor.idleFd).closedRefused := by
    have whole : acceptor.destroy.closed = (acceptor.close acceptor.idleFd).closed ++
        [(acceptor.close acceptor.idleFd).owner (acceptor.close acceptor.idleFd).listenFd] := rfl
    rw [closedRefused, whole, listener, List.count_append]
    rfl
  have count : acceptor.destroy.refusals = acceptor.refusals := refusals_close acceptor _
  have none : acceptor.destroy.inHand = 0 := rfl
  rw [Settled, empty] at settled
  rw [Settled, closed, count, none, idle, ← settled]
  rfl

theorem step_settled {label : Label} (sound : acceptor.Sound) (settled : acceptor.Settled)
    (taken : acceptor.step label = some next) : next.Settled := by
  rw [step] at taken
  split at taken
  · next here =>
      cases label with
      | accept accepted =>
          have place : AcceptorPlace.outside = acceptor.place := by simpa [Label.place] using here
          exact accept_settled settled place.symm taken
      | test isEMFILE =>
          have place : AcceptorPlace.failed = acceptor.place := by simpa [Label.place] using here
          have empty : acceptor.inHand = 0 := inHand_of_place (by rw [← place]; nofun)
          rw [Settled, empty] at settled
          cases taken
          cases isEMFILE with
          | true => exact settled
          | false => exact settled
      | closeIdle =>
          have place : AcceptorPlace.closeIdle = acceptor.place := by
            simpa [Label.place] using here
          have empty : acceptor.inHand = 0 := inHand_of_place (by rw [← place]; nofun)
          have held : holds acceptor.place = some .idle := by
            rw [← place]
            rfl
          have closed := closedRefused_close sound held
          rw [Settled, empty] at settled
          cases taken
          change (acceptor.close acceptor.idleFd).closedRefused + 0 =
            (acceptor.close acceptor.idleFd).refusals
          rw [closed, refusals_close, ← settled]
          rfl
      | acceptAgain accepted =>
          have place : AcceptorPlace.acceptAgain = acceptor.place := by
            simpa [Label.place] using here
          exact acceptAgain_settled settled place.symm taken
      | closeRefused =>
          have place : AcceptorPlace.closeRefused = acceptor.place := by
            simpa [Label.place] using here
          have held : holds acceptor.place = some .refused := by
            rw [← place]
            rfl
          have closed := closedRefused_close sound held
          have same : acceptor.inHand =
              if Owner.refused = .refused ∧ acceptor.idleFd ≠ none then 1 else 0 := by
            rw [inHand, ← place]
            simp
          cases taken
          change (acceptor.close acceptor.idleFd).closedRefused + 0 =
            (acceptor.close acceptor.idleFd).refusals
          rw [closed, refusals_close, ← same]
          exact settled
      | openIdle fd =>
          have place : AcceptorPlace.openIdle = acceptor.place := by
            simpa [Label.place] using here
          have empty : acceptor.inHand = 0 := inHand_of_place (by rw [← place]; nofun)
          rw [Settled, empty] at settled
          have opens : acceptor.openIdle fd = some next := taken
          cases fd with
          | none =>
              cases opens
              exact settled
          | some fd =>
              rw [openIdle] at opens
              split at opens
              · cases opens
                exact settled
              · cases opens
      | destroy =>
          have place : AcceptorPlace.outside = acceptor.place := by simpa [Label.place] using here
          cases taken
          exact destroy_settled sound settled place.symm
      | arrive =>
          cases taken
          exact settled
      | otherOpens fd =>
          rw [effect] at taken
          split at taken
          · cases taken
            exact settled
          · cases taken
      | otherCloses fd =>
          have closes : acceptor.otherCloses fd = some next := taken
          rw [otherCloses] at closes
          split at closes
          · cases closes
            exact settled
          · cases closes
            exact settled
          · cases closes
  · cases taken

/-! ## Whole runs -/

variable {limit listenFd : Nat} {others : Nat → Bool} {idleFd : Option Nat} {hasCallback : Bool}

theorem create_sound (apart : idleFd ≠ some listenFd) :
    (create limit others listenFd idleFd hasCallback).Sound := by
  refine ⟨?_, nofun, rfl⟩
  intro fd what mine
  dsimp only [create]
  by_cases listener : fd = listenFd
  · rw [if_pos listener]
    constructor
    · rintro ⟨⟩
      exact .inl ⟨rfl, nofun, listener⟩
    · rintro (⟨rfl, _, _⟩ | ⟨_, here⟩)
      · rfl
      · exact absurd (listener ▸ here) apart
  · rw [if_neg listener]
    by_cases idle : idleFd = some fd
    · rw [if_pos idle]
      simp [listener, holds, idle]
    · rw [if_neg idle]
      have foreign : what ≠ .other := by
        rintro rfl
        rcases mine with same | same | same <;> cases same
      constructor
      · intro given
        split at given
        · cases given
          exact absurd rfl foreign
        · cases given
      · rintro (⟨_, _, here⟩ | ⟨_, here⟩)
        · exact absurd here listener
        · exact absurd here idle

theorem sound_of_transitions {labels : List Label} (apart : idleFd ≠ some listenFd)
    (transitions : acceptorMachine.Transitions
      (create limit others listenFd idleFd hasCallback) labels acceptor) :
    acceptor.Sound ∧ acceptor.Settled := by
  apply transitions.invariant
  · rintro before label after ⟨sound, settled⟩ taken
    exact ⟨step_sound sound taken, step_settled sound settled taken⟩
  · exact ⟨create_sound apart, rfl⟩

/-- In every order of events and of what other threads open and close, the acceptor closes only
descriptors that are its own, knows each descriptor that it has to close, and of the connections
that have arrived each one waits or has left the queue once, in order; those that were refused have
been closed, but the one in hand. -/
theorem nothing_lost_or_leaked {labels : List Label} (apart : idleFd ≠ some listenFd)
    (transitions : acceptorMachine.Transitions
      (create limit others listenFd idleFd hasCallback) labels acceptor) :
    (∀ what ∈ acceptor.closed,
      what = some .listener ∨ what = some .idle ∨ what = some .refused) ∧
    (∀ fd what, acceptor.owner fd = some what → Mine what →
      what = .listener ∧ acceptor.place ≠ .destroyed ∧ fd = acceptor.listenFd ∨
        holds acceptor.place = some what ∧ acceptor.idleFd = some fd) ∧
    acceptor.taken.map Prod.fst ++ acceptor.pending = List.range acceptor.arrived ∧
    acceptor.closed.count (some .refused) + acceptor.inHand =
      (acceptor.taken.map Prod.snd).count .refused := by
  rcases sound_of_transitions apart transitions with ⟨sound, settled⟩
  refine ⟨?_, ?_, sound.queue, settled⟩
  · intro what member
    rcases sound.closed what member with ⟨owner, rfl, mine⟩
    rcases mine with rfl | rfl | rfl
    · exact .inl rfl
    · exact .inr (.inl rfl)
    · exact .inr (.inr rfl)
  · intro fd what here mine
    exact (sound.mine fd what mine).mp here

/-- The process has four descriptors. Two connections take the last two, the third is refused
with the idle one. -/
theorem nothing_lost_or_leaked_full : ∃ acceptor : Acceptor,
    (acceptor.taken, acceptor.closed, acceptor.idleFd) =
      ([(0, .handedOver), (1, .handedOver), (2, .refused)], [some .idle, some .refused],
        some 1) ∧
      acceptor.taken.map Prod.fst ++ acceptor.pending = List.range acceptor.arrived := by
  have facts : (Machine.runPartial step (create 4 (fun _ => false) 0 (some 1) true)
      [.arrive, .arrive, .arrive, .accept (.connection 2), .accept (.connection 3),
        .accept (.error false), .test true, .closeIdle, .acceptAgain (.connection 1),
        .closeRefused, .openIdle (some 1)]).map
      (fun acceptor => (acceptor.taken, acceptor.closed, acceptor.idleFd)) =
        some ([(0, .handedOver), (1, .handedOver), (2, .refused)], [some .idle, some .refused],
          some 1) := by
    decide +kernel
  rcases Option.map_eq_some_iff.mp facts with ⟨acceptor, ran, reached⟩
  have accounted := nothing_lost_or_leaked (by decide) (Machine.transitions_of_runPartial ran)
  exact ⟨acceptor, reached, accounted.2.2.1⟩

/-! ## The idle descriptor -/

def Full (acceptor : Acceptor) : Prop :=
  ∀ fd, fd < acceptor.limit → acceptor.owner fd ≠ none

instance (acceptor : Acceptor) : Decidable acceptor.Full :=
  Nat.decidableBallLT acceptor.limit fun fd _ => acceptor.owner fd ≠ none

/-- No other thread opens a descriptor in the branch for `EMFILE`, and in it the system only fails
to give a descriptor when there is none, to accept when nobody waits or a connection breaks off. -/
def Undisturbed (acceptor : Acceptor) : Label → Prop
  | .otherOpens _ =>
      acceptor.place ≠ .acceptAgain ∧ acceptor.place ≠ .closeRefused ∧ acceptor.place ≠ .openIdle
  | .acceptAgain (.error false) => acceptor.pending = [] ∨ acceptor.Full
  | .openIdle none => acceptor.Full
  | _ => True

instance (acceptor : Acceptor) : (label : Label) → Decidable (acceptor.Undisturbed label)
  | .otherOpens _ => inferInstanceAs (Decidable (_ ∧ _))
  | .acceptAgain (.error false) => inferInstanceAs (Decidable (_ ∨ _))
  | .openIdle none => inferInstanceAs (Decidable acceptor.Full)
  | .acceptAgain (.error true) | .acceptAgain (.connection _) | .openIdle (some _) | .accept _
  | .test _ | .closeIdle | .closeRefused | .destroy | .arrive | .otherCloses _ => .isTrue trivial

structure Room (acceptor : Acceptor) : Prop where
  below : ∀ fd, acceptor.idleFd = some fd → fd < acceptor.limit
  held : acceptor.place = .outside ∨ acceptor.place = .failed ∨ acceptor.place = .closeIdle →
    acceptor.idleFd ≠ none
  free : acceptor.place = .acceptAgain ∨ acceptor.place = .openIdle → ∃ fd, acceptor.Gives fd
  either : acceptor.place = .closeRefused → acceptor.idleFd = none → ∃ fd, acceptor.Gives fd

theorem Room.holding {fd : Nat} (here : acceptor.idleFd = some fd) (below : fd < acceptor.limit)
    (first : acceptor.place ≠ .acceptAgain) (second : acceptor.place ≠ .openIdle) :
    acceptor.Room where
  below other same := by
    rw [here] at same
    cases same
    exact below
  held _ := by
    rw [here]
    nofun
  free place := by
    rcases place with same | same
    · exact absurd same first
    · exact absurd same second
  either _ none := by
    rw [here] at none
    cases none

theorem gives_close {fd : Nat} (below : fd < acceptor.limit) :
    (acceptor.close (some fd)).Gives fd :=
  ⟨below, Function.update_self _ _ _⟩

theorem handOver_same (acceptor : Acceptor) (id fd : Nat) :
    (acceptor.handOver id fd).idleFd = acceptor.idleFd ∧
      (acceptor.handOver id fd).limit = acceptor.limit ∧
      (acceptor.handOver id fd).place = acceptor.place := by
  rw [handOver]
  split
  · rw [leave_eq]
    exact ⟨rfl, rfl, rfl⟩
  · rw [leave_eq]
    exact ⟨rfl, rfl, rfl⟩

theorem accept_room (room : acceptor.Room) (outside : acceptor.place = .outside)
    {accepted : Accepted} (taken : acceptor.accept accepted = some next) : next.Room := by
  rcases Option.ne_none_iff_exists'.mp (room.held (.inl outside)) with ⟨own, here⟩
  have below := room.below own here
  cases accepted with
  | connection fd =>
      rw [accept] at taken
      split at taken
      · cases taken
      · next id pending waiting =>
          split at taken
          · cases taken
            rcases acceptor.handOver_same id fd with ⟨idle, limit, place⟩
            apply Room.holding (idle.trans here) (limit ▸ below)
            · rw [place, outside]
              nofun
            · rw [place, outside]
              nofun
          · cases taken
  | error dropped =>
      cases taken
      cases dropped with
      | false => exact Room.holding here below nofun nofun
      | true =>
          refine @Room.holding _ own ?_ ?_ ?_ ?_
          · rw [leave_eq]
            exact here
          · rw [leave_eq]
            exact below
          · nofun
          · nofun

theorem acceptAgain_room (room : acceptor.Room) (here : acceptor.place = .acceptAgain)
    {accepted : Accepted} (taken : acceptor.acceptAgain accepted = some next) : next.Room := by
  cases accepted with
  | connection fd =>
      rw [acceptAgain] at taken
      split at taken
      · next gives =>
          cases taken
          refine @Room.holding _ fd ?_ ?_ ?_ ?_
          · rfl
          · rw [leave_eq]
            exact gives.2.1
          · nofun
          · nofun
      · cases taken
  | error dropped =>
      cases taken
      refine ⟨nofun, nofun, nofun, fun _ _ => ?_⟩
      cases dropped with
      | false => exact room.free (.inl here)
      | true =>
          rcases room.free (.inl here) with ⟨fd, gives⟩
          exact ⟨fd, (gives_leave .dropped fd).mpr gives⟩

theorem step_room {label : Label} (room : acceptor.Room)
    (undisturbed : acceptor.Undisturbed label) (taken : acceptor.step label = some next) :
    next.Room := by
  rw [step] at taken
  split at taken
  · next here =>
      cases label with
      | accept accepted =>
          have place : AcceptorPlace.outside = acceptor.place := by simpa [Label.place] using here
          exact accept_room room place.symm taken
      | test isEMFILE =>
          have place : AcceptorPlace.failed = acceptor.place := by simpa [Label.place] using here
          have held := room.held (.inr (.inl place.symm))
          cases taken
          cases isEMFILE with
          | true => exact ⟨room.below, fun _ => held, nofun, nofun⟩
          | false => exact ⟨room.below, fun _ => held, nofun, nofun⟩
      | closeIdle =>
          have place : AcceptorPlace.closeIdle = acceptor.place := by
            simpa [Label.place] using here
          rcases Option.ne_none_iff_exists'.mp (room.held (.inr (.inr place.symm))) with
            ⟨own, held⟩
          have below := room.below own held
          cases taken
          rw [held]
          exact ⟨room.below, nofun, fun _ => ⟨own, gives_close below⟩, nofun⟩
      | acceptAgain accepted =>
          have place : AcceptorPlace.acceptAgain = acceptor.place := by
            simpa [Label.place] using here
          exact acceptAgain_room room place.symm taken
      | closeRefused =>
          have place : AcceptorPlace.closeRefused = acceptor.place := by
            simpa [Label.place] using here
          cases taken
          cases held : acceptor.idleFd with
          | none =>
              refine ⟨?_, nofun, fun _ => room.either place.symm held, nofun⟩
              intro fd same
              exact room.below fd same
          | some own =>
              have below := room.below own held
              exact ⟨room.below, nofun, fun _ => ⟨own, gives_close below⟩, nofun⟩
      | openIdle fd =>
          have place : AcceptorPlace.openIdle = acceptor.place := by
            simpa [Label.place] using here
          have opens : acceptor.openIdle fd = some next := taken
          cases fd with
          | none =>
              rcases room.free (.inr place.symm) with ⟨fd, gives⟩
              exact absurd gives.2 (undisturbed fd gives.1)
          | some fd =>
              rw [openIdle] at opens
              split at opens
              · next gives =>
                  cases opens
                  exact Room.holding rfl gives.1 nofun nofun
              · cases opens
      | destroy =>
          cases taken
          refine ⟨?_, nofun, nofun, nofun⟩
          intro fd same
          cases held : acceptor.idleFd with
          | none =>
              rw [Acceptor.destroy, held] at same
              rw [Acceptor.destroy, held]
              exact room.below fd same
          | some own =>
              rw [Acceptor.destroy, held] at same
              rw [Acceptor.destroy, held]
              exact room.below fd same
      | arrive =>
          cases taken
          exact ⟨room.below, room.held, room.free, room.either⟩
      | otherOpens fd =>
          rw [effect] at taken
          split at taken
          · cases taken
            rcases undisturbed with ⟨first, second, third⟩
            refine ⟨room.below, room.held, ?_, fun place => absurd place second⟩
            rintro (place | place)
            · exact absurd place first
            · exact absurd place third
          · cases taken
      | otherCloses fd =>
          have closes : acceptor.otherCloses fd = some next := taken
          rw [otherCloses] at closes
          have still : ∀ other, acceptor.Gives other → (acceptor.assign fd none).Gives other := by
            rintro other ⟨below, free⟩
            refine ⟨below, ?_⟩
            rw [assign]
            by_cases same : other = fd
            · rw [same]
              exact Function.update_self _ _ _
            · exact (Function.update_of_ne same _ _).trans free
          have after : (acceptor.assign fd none).Room :=
            ⟨room.below, room.held, fun place => (room.free place).imp still,
              fun place none => (room.either place none).imp still⟩
          split at closes
          · cases closes
            exact after
          · cases closes
            exact after
          · cases closes
  · cases taken

theorem room_of_transitions {own : Nat} {labels : List Label} (below : own < limit)
    (transitions : (acceptorMachine.restrict Undisturbed).Transitions
      (create limit others listenFd (some own) hasCallback) labels acceptor) : acceptor.Room := by
  apply transitions.invariant
  · rintro before label after room ⟨taken, undisturbed⟩
    exact step_room room undisturbed taken
  · exact Room.holding rfl below nofun nofun

/-- As long as nobody takes the free descriptor in between, the acceptor always has its idle
descriptor when it returns to the loop, and the branch for `EMFILE` takes a waiting connection out
of the queue, so that it cannot wake the loop again. -/
theorem idle_descriptor_kept {own : Nat} {labels : List Label} (apart : own ≠ listenFd)
    (below : own < limit)
    (transitions : (acceptorMachine.restrict Undisturbed).Transitions
      (create limit others listenFd (some own) hasCallback) labels acceptor) :
    (acceptor.place = .outside →
      ∃ fd, acceptor.idleFd = some fd ∧ acceptor.owner fd = some .idle) ∧
    ∀ accepted next id pending, acceptor.Undisturbed (.acceptAgain accepted) →
      acceptor.step (.acceptAgain accepted) = some next → acceptor.pending = id :: pending →
      next.pending = pending ∧ ∃ fate, next.taken = acceptor.taken ++ [(id, fate)] := by
  have room := room_of_transitions below transitions
  have sound := (sound_of_transitions (fun same => apart (Option.some.inj same))
    transitions.of_restrict).1
  constructor
  · intro outside
    rcases Option.ne_none_iff_exists'.mp (room.held (.inl outside)) with ⟨fd, here⟩
    have held : holds acceptor.place = some .idle := by
      rw [outside]
      rfl
    exact ⟨fd, here, (sound.mine fd .idle (.inr (.inl rfl))).mpr (.inr ⟨held, here⟩)⟩
  · intro accepted next id pending undisturbed taken waiting
    rw [step] at taken
    split at taken
    · next here =>
        have place : AcceptorPlace.acceptAgain = acceptor.place := by
          simpa [Label.place] using here
        have again : acceptor.acceptAgain accepted = some next := taken
        cases accepted with
        | connection fd =>
            rw [acceptAgain] at again
            split at again
            · cases again
              rw [leave, waiting]
              exact ⟨rfl, _, rfl⟩
            · cases again
        | error dropped =>
            cases dropped with
            | true =>
                cases again
                rw [leave, waiting]
                exact ⟨rfl, _, rfl⟩
            | false =>
                rcases undisturbed with none | full
                · rw [none] at waiting
                  cases waiting
                · rcases room.free (.inl place.symm) with ⟨fd, gives⟩
                  exact absurd gives.2 (full fd gives.1)
    · cases taken

theorem idle_descriptor_kept_full : ∃ acceptor : Acceptor,
    acceptor.taken.map Prod.fst = [0, 1, 2] ∧
      ∃ fd, acceptor.idleFd = some fd ∧ acceptor.owner fd = some .idle := by
  have facts : (Machine.runPartial
      (fun (acceptor : Acceptor) label =>
        if acceptor.Undisturbed label then acceptor.step label else none)
      (create 4 (fun _ => false) 0 (some 1) true)
      [.arrive, .arrive, .arrive, .accept (.connection 2), .accept (.connection 3),
        .accept (.error false), .test true, .closeIdle, .acceptAgain (.connection 1),
        .closeRefused, .openIdle (some 1)]).map
      (fun acceptor => (acceptor.taken.map Prod.fst, acceptor.place)) =
        some ([0, 1, 2], .outside) := by
    decide +kernel
  rcases Option.map_eq_some_iff.mp facts with ⟨acceptor, ran, reached⟩
  simp only [Prod.mk.injEq] at reached
  have kept := idle_descriptor_kept (by decide) (by decide)
    (Machine.transitions_of_checked_run ran)
  exact ⟨acceptor, reached.1, kept.1 reached.2⟩

end Acceptor

end MyBookSources.Net
