import MyBookSources.Foundation.Handles

/-! # The handles an owner has listed

An owner keeps a list of the values that it has created and not closed. If the list is never
wrong, then nothing is closed twice, and what is left is closed by going through the list.
-/

namespace MyBookSources.HandleTable

variable {Value : Type}

/-- `values` are the open handles, and each created handle is either closed once or among
them. -/
structure Owned (table : HandleTable Value) (values : List Value) : Prop where
  distinct : values.Nodup
  isOpen : ∀ value, table.isOpen value = true ↔ value ∈ values
  known : ∀ value ∈ values, (table.named value).isSome = true
  numbered : (table.closed ++ values.filterMap table.named).Perm (List.range table.created)

theorem owned_empty : (empty : HandleTable Value).Owned [] where
  distinct := List.nodup_nil
  isOpen value := by
    constructor
    · intro opened
      cases opened
    · intro member
      cases member
  known _ member := absurd member List.not_mem_nil
  numbered := List.Perm.refl []

variable {table : HandleTable Value} {values : List Value}

namespace Owned

theorem fresh (owned : table.Owned values) {value : Value} (closed : table.isOpen value = false) :
    value ∉ values := by
  intro member
  have opened := (owned.isOpen value).mpr member
  rw [closed] at opened
  cases opened

theorem not_closed (owned : table.Owned values) {value : Value} (member : value ∈ values) :
    ∃ number, table.named value = some number ∧ number ∉ table.closed := by
  rcases Option.isSome_iff_exists.mp (owned.known value member) with ⟨number, found⟩
  refine ⟨number, found, ?_⟩
  have distinct := owned.numbered.nodup_iff.mpr List.nodup_range
  intro closed
  exact (List.disjoint_of_nodup_append distinct) closed
    (List.mem_filterMap.mpr ⟨value, member, found⟩)

theorem closedOnce (owned : table.Owned []) : table.ClosedOnce := by
  intro number created
  have counted := owned.numbered.count_eq number
  rw [List.filterMap_nil, List.append_nil] at counted
  rw [counted]
  exact List.count_eq_one_of_mem List.nodup_range (List.mem_range.mpr created)

variable [DecidableEq Value]

theorem filterMap_named_create (owned : table.Owned values) {value : Value}
    (closed : table.isOpen value = false) :
    values.filterMap (table.create value).named = values.filterMap table.named := by
  apply List.filterMap_congr
  intro other member
  apply named_create_of_ne
  rintro rfl
  exact owned.fresh closed member

theorem create (owned : table.Owned values) {value : Value}
    (closed : table.isOpen value = false) : (table.create value).Owned (values ++ [value]) where
  distinct := by
    have apart : values.Disjoint [value] :=
      List.disjoint_singleton.mpr (owned.fresh closed)
    exact owned.distinct.append (List.nodup_singleton value) apart
  isOpen other := by
    rw [List.mem_append, List.mem_singleton]
    by_cases same : other = value
    · simp [same]
    · rw [isOpen_create_of_ne same, owned.isOpen other]
      simp [same]
  known other member := by
    by_cases same : other = value
    · rw [same, named_create_self]
      rfl
    · rw [named_create_of_ne same]
      rcases List.mem_append.mp member with before | own
      · exact owned.known other before
      · exact absurd (List.mem_singleton.mp own) same
  numbered := by
    rw [List.filterMap_append, owned.filterMap_named_create closed, ← List.append_assoc]
    have named : [value].filterMap (table.create value).named = [table.created] := by
      rw [List.filterMap_cons, named_create_self]
      rfl
    rw [named]
    change (table.closed ++ values.filterMap table.named ++ [table.created]).Perm
      (List.range (table.created + 1))
    rw [List.range_succ]
    exact owned.numbered.append_right _

theorem close (owned : table.Owned values) {value : Value} (member : value ∈ values) :
    (table.close value).Owned (values.erase value) where
  distinct := owned.distinct.erase value
  isOpen other := by
    rw [owned.distinct.mem_erase_iff, ← owned.isOpen other]
    by_cases same : other = value
    · simp [HandleTable.close, same]
    · simp [HandleTable.close, same]
  known other member' := owned.known other (List.mem_of_mem_erase member')
  numbered := by
    have front : (values.filterMap table.named).Perm
        ((table.named value).toList ++ (values.erase value).filterMap table.named) := by
      have split := (List.perm_cons_erase member).filterMap table.named
      rw [List.filterMap_cons] at split
      cases found : table.named value with
      | none =>
          rw [found] at split
          exact split
      | some number =>
          rw [found] at split
          exact split
    have all := (front.append_left table.closed).symm.trans owned.numbered
    rw [← List.append_assoc] at all
    exact all

theorem closeAll (owned : table.Owned values) : (table.closeAll values).Owned [] := by
  rw [closeAll_eq]
  refine ⟨List.nodup_nil, ?_, fun _ member => absurd member List.not_mem_nil, ?_⟩
  · intro value
    have known := owned.isOpen value
    by_cases member : value ∈ values
    · simp [member]
    · simp [member, Bool.eq_false_iff.mpr (mt known.mp member)]
  · rw [List.filterMap_nil, List.append_nil]
    exact owned.numbered

theorem refuse (owned : table.Owned values) {value : Value}
    (closed : table.isOpen value = false) : ((table.create value).close value).Owned values := by
  have added := owned.create closed
  have removed := added.close (List.mem_append_right values List.mem_cons_self)
  rw [List.erase_append_right [value] (owned.fresh closed), List.erase_cons_head,
    List.append_nil] at removed
  exact removed

end Owned

end MyBookSources.HandleTable
