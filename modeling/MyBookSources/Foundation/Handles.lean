import Mathlib.Data.List.Count
import Mathlib.Data.List.Nodup
import Mathlib.Data.List.Range
import Mathlib.Logic.Function.Basic

/-! # Handles and who closes them

A system names what it creates by handle values and may give the value of a closed handle to a
new one. Each created handle has a number of its own, so that it can be said how often it is
closed, whatever its value.
-/

namespace MyBookSources

/-- `named` is the number of the last handle that was created with a value, `closed` the
numbers of the handles named by the calls that close. -/
structure HandleTable (Value : Type) where
  isOpen : Value → Bool
  named : Value → Option Nat
  created : Nat
  closed : List Nat

namespace HandleTable

variable {Value : Type}

def empty : HandleTable Value where
  isOpen _ := false
  named _ := none
  created := 0
  closed := []

/-- Every handle that was created is closed by exactly one call. -/
def ClosedOnce (table : HandleTable Value) : Prop :=
  ∀ number, number < table.created → table.closed.count number = 1

structure WellFormed (table : HandleTable Value) : Prop where
  named : ∀ value number, table.named value = some number → number < table.created
  closed : ∀ number ∈ table.closed, number < table.created

theorem empty_wellFormed : (empty : HandleTable Value).WellFormed where
  named _ _ found := by cases found
  closed _ member := by cases member

theorem ClosedOnce.length {table : HandleTable Value} (once : table.ClosedOnce)
    (wellFormed : table.WellFormed) : table.closed.length = table.created := by
  have perm : table.closed.Perm (List.range table.created) := by
    rw [List.perm_iff_count]
    intro number
    by_cases known : number < table.created
    · rw [once number known,
        List.count_eq_one_of_mem List.nodup_range (List.mem_range.mpr known)]
    · rw [List.count_eq_zero_of_not_mem fun member => known (wellFormed.closed number member),
        List.count_eq_zero_of_not_mem fun member => known (List.mem_range.mp member)]
  rw [perm.length_eq, List.length_range]

variable [DecidableEq Value]

def adopt (table : HandleTable Value) (value : Value) : HandleTable Value :=
  { table with
    isOpen := Function.update table.isOpen value true
    named := Function.update table.named value none }

def create (table : HandleTable Value) (value : Value) : HandleTable Value :=
  { table with
    isOpen := Function.update table.isOpen value true
    named := Function.update table.named value (some table.created)
    created := table.created + 1 }

def close (table : HandleTable Value) (value : Value) : HandleTable Value :=
  { table with
    isOpen := Function.update table.isOpen value false
    closed := table.closed ++ (table.named value).toList }

def closeAll (table : HandleTable Value) (values : List Value) : HandleTable Value :=
  values.foldl close table

variable {table : HandleTable Value}

@[simp] theorem isOpen_create_self (value : Value) : (table.create value).isOpen value = true :=
  Function.update_self ..

@[simp] theorem named_create_self (value : Value) :
    (table.create value).named value = some table.created :=
  Function.update_self ..

theorem isOpen_create_of_ne {value other : Value} (apart : other ≠ value) :
    (table.create value).isOpen other = table.isOpen other :=
  Function.update_of_ne apart _ _

theorem named_create_of_ne {value other : Value} (apart : other ≠ value) :
    (table.create value).named other = table.named other :=
  Function.update_of_ne apart _ _

theorem WellFormed.adopt (wellFormed : table.WellFormed) (value : Value) :
    (table.adopt value).WellFormed where
  named other number found := by
    by_cases same : other = value
    · simp only [HandleTable.adopt, same, Function.update_self] at found
      cases found
    · simp only [HandleTable.adopt, Function.update_of_ne same] at found
      exact wellFormed.named other number found
  closed := wellFormed.closed

theorem WellFormed.create (wellFormed : table.WellFormed) (value : Value) :
    (table.create value).WellFormed where
  named other number found := by
    by_cases same : other = value
    · rw [same, named_create_self] at found
      cases found
      exact Nat.lt_succ_self _
    · rw [named_create_of_ne same] at found
      exact Nat.lt_succ_of_lt (wellFormed.named other number found)
  closed number member := Nat.lt_succ_of_lt (wellFormed.closed number member)

theorem closeAll_eq (values : List Value) : table.closeAll values =
    { table with
      isOpen := fun value => table.isOpen value && decide (value ∉ values)
      closed := table.closed ++ values.filterMap table.named } := by
  induction values generalizing table with
  | nil => simp [closeAll]
  | cons value values induction =>
      rw [closeAll, List.foldl_cons, ← closeAll, induction]
      simp only [close, List.append_assoc, List.filterMap_cons]
      congr 1
      · funext other
        by_cases same : other = value
        · simp [same]
        · simp [same]
      · cases table.named value <;> rfl

@[simp] theorem named_closeAll (values : List Value) :
    (table.closeAll values).named = table.named := by
  rw [closeAll_eq]

@[simp] theorem created_closeAll (values : List Value) :
    (table.closeAll values).created = table.created := by
  rw [closeAll_eq]

theorem WellFormed.closeAll (wellFormed : table.WellFormed) (values : List Value) :
    (table.closeAll values).WellFormed where
  named := by
    simpa using wellFormed.named
  closed number member := by
    rw [closeAll_eq] at member ⊢
    rcases List.mem_append.mp member with before | now
    · exact wellFormed.closed number before
    · rcases List.mem_filterMap.mp now with ⟨value, _, found⟩
      exact wellFormed.named value number found

theorem length_closed_closeAll {values : List Value}
    (known : ∀ value ∈ values, (table.named value).isSome = true) :
    (table.closeAll values).closed.length = table.closed.length + values.length := by
  rw [closeAll_eq, List.length_append]
  congr 1
  induction values with
  | nil => rfl
  | cons value values induction =>
      rcases Option.isSome_iff_exists.mp (known value List.mem_cons_self) with ⟨number, found⟩
      rw [List.filterMap_cons, found]
      simp only [List.length_cons]
      rw [induction fun other member => known other (List.mem_cons_of_mem _ member)]

end HandleTable

end MyBookSources
