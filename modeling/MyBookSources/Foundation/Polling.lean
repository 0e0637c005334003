import Mathlib.Data.List.Infix
import Mathlib.Order.Monotone.Basic

/-! # Loops that poll for data

A loop polls for data until what it has received satisfies a test. Polls that find nothing use
up a budget, polls that bring data do not, even if the data is empty. A loop that goes on for
ever receives without end, or is brought nothing but empty data from some poll on.
-/

namespace MyBookSources.Polling

inductive Poll (α : Type u)
  | quiet
  | error
  | data (items : List α)
  deriving DecidableEq

namespace Poll

variable {α : Type u}

def items : Poll α → List α
  | quiet => []
  | error => []
  | data items => items

def isQuiet : Poll α → Nat
  | quiet => 1
  | error => 0
  | data _ => 0

end Poll

variable {α : Type u} (polls : Nat → Poll α)

def received : Nat → List α
  | 0 => []
  | count + 1 => received count ++ (polls count).items

def quiets : Nat → Nat
  | 0 => 0
  | count + 1 => quiets count + (polls count).isQuiet

def Passes (budget : Nat) (found : List α → Prop) (count : Nat) : Prop :=
  match polls count with
  | .quiet => quiets polls count < budget
  | .error => False
  | .data _ => ¬ found (received polls (count + 1))

def Endless (budget : Nat) (found : List α → Prop) : Prop :=
  ∀ count, Passes polls budget found count

/-- From some poll on all bring empty data, and none before ends the loop. -/
def Stalls (budget : Nat) (found : List α → Prop) : Prop :=
  ∃ first, (∀ count, first ≤ count → polls count = .data []) ∧
    (∀ count, count < first → polls count ≠ .error) ∧ quiets polls first ≤ budget ∧
    ¬ found (received polls first)

section

variable {polls}

theorem received_mono {left right : Nat} (ordered : left ≤ right) :
    received polls left <+: received polls right := by
  induction right, ordered using Nat.le_induction with
  | base => exact List.prefix_rfl
  | succ right _ induction => exact induction.trans (List.prefix_append _ _)

theorem quiets_mono {left right : Nat} (ordered : left ≤ right) :
    quiets polls left ≤ quiets polls right := by
  induction right, ordered using Nat.le_induction with
  | base => exact Nat.le_refl _
  | succ right _ induction => exact Nat.le_trans induction (Nat.le_add_right _ _)

variable {budget : Nat} {found : List α → Prop}

theorem Endless.quiets_le (endless : Endless polls budget found) (count : Nat) :
    quiets polls count ≤ budget := by
  induction count with
  | zero => exact Nat.zero_le budget
  | succ count induction =>
      have passes := endless count
      rw [quiets]
      unfold Passes at passes
      split at passes
      · next quiet =>
          rw [quiet]
          exact passes
      · cases passes
      · next items data =>
          rw [data]
          exact induction

theorem exists_last_of_bounded {values : Nat → Nat} (mono : Monotone values) {bound : Nat}
    (bounded : ∀ count, values count ≤ bound) :
    ∃ first, ∀ count, first ≤ count → values count = values first := by
  by_contra moves
  push Not at moves
  have large : ∀ level, ∃ count, level ≤ values count := by
    intro level
    induction level with
    | zero => exact ⟨0, Nat.zero_le _⟩
    | succ level induction =>
        rcases induction with ⟨count, reached⟩
        rcases moves count with ⟨later, behind, differs⟩
        have grown := mono behind
        exact ⟨later, by omega⟩
  rcases large (bound + 1) with ⟨count, beyond⟩
  have within := bounded count
  omega

theorem endless_of_stalls (monotone : ∀ front back, found front → found (front ++ back))
    (stalls : Stalls polls budget found) : Endless polls budget found := by
  rcases stalls with ⟨first, empty, noError, few, notFound⟩
  have same : ∀ count, first ≤ count → received polls count = received polls first := by
    intro count behind
    induction count, behind using Nat.le_induction with
    | base => rfl
    | succ count behind induction =>
        rw [received, empty count behind, induction]
        exact List.append_nil _
  have never : ∀ count, ¬ found (received polls count) := by
    intro count early
    rcases Nat.le_total count first with before | behind
    · have front : received polls count <+: received polls first := received_mono before
      rcases front with ⟨rest, whole⟩
      apply notFound
      rw [← whole]
      exact monotone _ _ early
    · rw [same count behind] at early
      exact notFound early
  intro count
  unfold Passes
  split
  · next quiet =>
      have before : count < first := by
        by_contra behind
        rw [empty count (Nat.not_lt.mp behind)] at quiet
        cases quiet
      have next : quiets polls (count + 1) ≤ quiets polls first :=
        quiets_mono (Nat.succ_le_of_lt before)
      rw [quiets, quiet] at next
      exact Nat.lt_of_lt_of_le (Nat.lt_succ_self _) (Nat.le_trans next few)
  · next error =>
      rcases Nat.lt_or_ge count first with before | behind
      · exact noError count before error
      · rw [empty count behind] at error
        cases error
  · exact never (count + 1)

/-- An endless loop whose data does not grow without end stalls. -/
theorem Endless.stalls_of_bounded (endless : Endless polls budget found)
    (start : ¬ found []) {bound : Nat}
    (bounded : ∀ count, (received polls count).length ≤ bound) :
    Stalls polls budget found := by
  have mono : Monotone fun count => (received polls count).length + quiets polls count := by
    intro left right ordered
    exact Nat.add_le_add (received_mono ordered).length_le (quiets_mono ordered)
  rcases exists_last_of_bounded mono
      (fun count => Nat.add_le_add (bounded count) (endless.quiets_le count)) with
    ⟨first, still⟩
  have notFound : ∀ count, ¬ found (received polls count) := by
    intro count
    induction count with
    | zero => exact start
    | succ count induction =>
        have passes := endless count
        unfold Passes at passes
        split at passes
        · next quiet =>
            rw [received, quiet]
            simpa [Poll.items] using induction
        · cases passes
        · exact passes
  refine ⟨first, ?_, ?_, endless.quiets_le first, notFound first⟩
  · intro count behind
    have here := still count behind
    have next := still (count + 1) (Nat.le_succ_of_le behind)
    have passes := endless count
    rw [← here, received, quiets, List.length_append] at next
    unfold Passes at passes
    split at passes
    · next quiet =>
        rw [quiet] at next
        simp only [Poll.items, Poll.isQuiet, List.length_nil] at next
        omega
    · cases passes
    · next items data =>
        rw [data] at next ⊢
        simp only [Poll.items, Poll.isQuiet] at next
        have none : items.length = 0 := by omega
        rw [List.length_eq_zero_iff.mp none]
  · intro count _ error
    have passes := endless count
    rw [Passes, error] at passes
    exact passes

/-- Whenever the loop is endless its data grows without end, exactly if it does not stall. -/
theorem endless_grows_iff (monotone : ∀ front back, found front → found (front ++ back))
    (start : ¬ found []) :
    (Endless polls budget found → ∀ bound, ∃ count, bound ≤ (received polls count).length) ↔
      ¬ Stalls polls budget found := by
  constructor
  · intro grows stalls
    have endless := endless_of_stalls monotone stalls
    rcases stalls with ⟨first, empty, _⟩
    have short : ∀ count, (received polls count).length ≤ (received polls first).length := by
      intro count
      rcases Nat.le_total count first with before | behind
      · exact (received_mono before).length_le
      · induction count, behind using Nat.le_induction with
        | base => exact Nat.le_refl _
        | succ count behind induction =>
            rw [received, empty count behind]
            simpa [Poll.items] using induction
    rcases grows endless ((received polls first).length + 1) with ⟨count, long⟩
    have within := short count
    omega
  · intro noStall endless
    by_contra still
    push Not at still
    rcases still with ⟨bound, short⟩
    exact noStall (endless.stalls_of_bounded start fun count => Nat.le_of_lt (short count))

end

end MyBookSources.Polling
