import Mathlib.Data.List.Pairwise
import Mathlib.Logic.Function.Basic

/-! # Values that accumulate under keys

Reports arrive one after another, each a value under a key. A register that joins each report
to what it holds shows the report itself exactly when the earlier reports under its key are
within it.
-/

namespace MyBookSources.Accumulation

variable {Key Value : Type} [DecidableEq Key] (join : Value → Value → Value)

/-- `small` adds nothing to `large`. -/
def Within (small large : Value) : Prop := join small large = large

instance [DecidableEq Value] (small large : Value) : Decidable (Within join small large) :=
  inferInstanceAs (Decidable (_ = _))

def collect : (Key → Value) → List (Key × Value) → Key → Value
  | held, [] => held
  | held, report :: reports =>
      collect (Function.update held report.1 (join (held report.1) report.2)) reports

def Shown : (Key → Value) → List (Key × Value) → Prop
  | _, [] => True
  | held, report :: reports =>
      Within join (held report.1) report.2 ∧
        Shown (Function.update held report.1 (join (held report.1) report.2)) reports

variable {join}

theorem shown_append {held : Key → Value} {left right : List (Key × Value)} :
    Shown join held (left ++ right) ↔
      Shown join held left ∧ Shown join (collect join held left) right := by
  induction left generalizing held with
  | nil => simp [Shown, collect]
  | cons report left induction =>
      simp only [List.cons_append, Shown, collect]
      rw [induction, and_assoc]

/-! ## Reports under different keys -/

theorem collect_of_other {held : Key → Value} {reports : List (Key × Value)} {key : Key}
    (other : ∀ report ∈ reports, report.1 ≠ key) : collect join held reports key = held key := by
  induction reports generalizing held with
  | nil => rfl
  | cons report reports induction =>
      rcases List.forall_mem_cons.mp other with ⟨first, later⟩
      rw [collect, induction later, Function.update_of_ne first.symm]

theorem collect_of_mem {held : Key → Value} {reports : List (Key × Value)}
    (apart : reports.Pairwise fun left right => left.1 ≠ right.1) {report : Key × Value}
    (member : report ∈ reports) :
    collect join held reports report.1 = join (held report.1) report.2 := by
  induction reports generalizing held with
  | nil => cases member
  | cons first reports induction =>
      rcases List.pairwise_cons.mp apart with ⟨differ, apart⟩
      rw [collect]
      rcases List.mem_cons.mp member with rfl | later
      · rw [collect_of_other fun other found => (differ other found).symm,
          Function.update_self]
      · rw [induction apart later, Function.update_of_ne (differ report later).symm]

theorem shown_iff_of_apart {held : Key → Value} {reports : List (Key × Value)}
    (apart : reports.Pairwise fun left right => left.1 ≠ right.1) :
    Shown join held reports ↔ ∀ report ∈ reports, Within join (held report.1) report.2 := by
  induction reports generalizing held with
  | nil => simp [Shown]
  | cons first reports induction =>
      rcases List.pairwise_cons.mp apart with ⟨differ, apart⟩
      rw [Shown, induction apart, List.forall_mem_cons]
      refine and_congr_right fun _ => forall₂_congr ?_
      intro report member
      rw [Function.update_of_ne (differ report member).symm]

/-! ## The order of the reports -/

section Semilattice

variable [associative : Std.Associative join] [commutative : Std.Commutative join]
  [idempotent : Std.IdempotentOp join]

theorem join_within_iff {left right large : Value} :
    Within join (join left right) large ↔ Within join left large ∧ Within join right large := by
  unfold Within
  constructor
  · intro both
    constructor
    · rw [← both, ← associative.assoc left, ← associative.assoc left, idempotent.idempotent]
    · have turned : join (join right left) large = large := by
        rw [commutative.comm right left]
        exact both
      rw [← turned, ← associative.assoc right, ← associative.assoc right,
        idempotent.idempotent]
  · intro both
    rw [associative.assoc, both.2, both.1]

theorem shown_iff_held_and_pairwise {held : Key → Value} {reports : List (Key × Value)} :
    Shown join held reports ↔
      (∀ report ∈ reports, Within join (held report.1) report.2) ∧
        reports.Pairwise fun earlier later =>
          earlier.1 = later.1 → Within join earlier.2 later.2 := by
  induction reports generalizing held with
  | nil => simp [Shown]
  | cons first reports induction =>
      rw [Shown, induction, List.forall_mem_cons, List.pairwise_cons]
      have split : (∀ report ∈ reports, Within join (Function.update held first.1
            (join (held first.1) first.2) report.1) report.2) ↔
          (∀ report ∈ reports, Within join (held report.1) report.2) ∧
            ∀ report ∈ reports, first.1 = report.1 → Within join first.2 report.2 := by
        rw [← forall₂_and]
        refine forall₂_congr ?_
        intro report member
        by_cases same : first.1 = report.1
        · rw [same, Function.update_self, join_within_iff]
          simp
        · rw [Function.update_of_ne (Ne.symm same)]
          simp [same]
      rw [split]
      simp only [and_assoc]

/-- From empty registers each report is shown as it arrived exactly when it has all that was
reported before under its key. -/
theorem shown_iff_pairwise {empty : Value} (unit : ∀ value, join empty value = value)
    {reports : List (Key × Value)} :
    Shown join (fun _ => empty) reports ↔
      reports.Pairwise fun earlier later =>
        earlier.1 = later.1 → Within join earlier.2 later.2 := by
  rw [shown_iff_held_and_pairwise]
  exact and_iff_right fun report _ => unit report.2

end Semilattice

end MyBookSources.Accumulation
