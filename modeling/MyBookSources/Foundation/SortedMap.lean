import Mathlib.Algebra.Ring.Nat
import Mathlib.Data.List.Basic

/-! # Maps with sorted keys

A map as the list of its entries in the order of their keys. An insertion keeps an entry that is
there, and `set` replaces it.
-/

namespace MyBookSources

structure SortedMap (Key Value : Type) [LT Key] where
  entries : List (Key × Value)
  sorted : entries.Pairwise fun left right => left.1 < right.1

namespace SortedMap

variable {Key Value : Type} [LT Key]

theorem ext_entries {left right : SortedMap Key Value} (same : left.entries = right.entries) :
    left = right := by
  cases left
  cases right
  cases same
  rfl

def empty : SortedMap Key Value where
  entries := []
  sorted := .nil

variable [DecidableLT Key]

def insertEntry (key : Key) (value : Value) : List (Key × Value) → List (Key × Value)
  | [] => [(key, value)]
  | entry :: entries =>
      if key < entry.1 then (key, value) :: entry :: entries
      else if entry.1 < key then entry :: insertEntry key value entries
      else entry :: entries

theorem insertEntry_cases (key : Key) (value : Value) (entries : List (Key × Value)) :
    insertEntry key value entries = entries ∨
      (insertEntry key value entries).Perm ((key, value) :: entries) := by
  induction entries with
  | nil => exact .inr (List.Perm.refl _)
  | cons entry entries induction =>
      rw [insertEntry]
      split
      · exact .inr (List.Perm.refl _)
      · split
        · rcases induction with same | perm
          · rw [same]
            exact .inl rfl
          · exact .inr ((perm.cons entry).trans (List.Perm.swap _ _ _))
        · exact .inl rfl

theorem mem_insertEntry {key : Key} {value : Value} {entries : List (Key × Value)}
    {other : Key × Value} (member : other ∈ insertEntry key value entries) :
    other = (key, value) ∨ other ∈ entries := by
  rcases insertEntry_cases key value entries with same | perm
  · rw [same] at member
    exact .inr member
  · exact List.mem_cons.mp (perm.mem_iff.mp member)

section

variable [Trans (fun left right : Key => left < right) (fun left right => left < right)
  (fun left right => left < right)]

theorem sorted_insertEntry (key : Key) (value : Value) {entries : List (Key × Value)}
    (sorted : entries.Pairwise fun left right => left.1 < right.1) :
    (insertEntry key value entries).Pairwise fun left right => left.1 < right.1 := by
  induction entries with
  | nil => exact List.pairwise_singleton _ _
  | cons entry entries induction =>
      rcases List.pairwise_cons.mp sorted with ⟨first, rest⟩
      rw [insertEntry]
      split
      · next before =>
        refine List.pairwise_cons.mpr ⟨?_, sorted⟩
        intro other member
        rcases List.mem_cons.mp member with rfl | later
        · exact before
        · exact Trans.trans before (first other later)
      · split
        · next after =>
          refine List.pairwise_cons.mpr ⟨?_, induction rest⟩
          intro other member
          rcases mem_insertEntry member with rfl | old
          · exact after
          · exact first other old
        · exact sorted

def insert (map : SortedMap Key Value) (key : Key) (value : Value) : SortedMap Key Value where
  entries := insertEntry key value map.entries
  sorted := sorted_insertEntry key value map.sorted

variable {map : SortedMap Key Value}

theorem entries_insert (key : Key) (value : Value) :
    (map.insert key value).entries = insertEntry key value map.entries :=
  rfl

theorem mem_insert_of_mem {entry : Key × Value} (member : entry ∈ map.entries) (key : Key)
    (value : Value) : entry ∈ (map.insert key value).entries := by
  rw [entries_insert]
  rcases insertEntry_cases key value map.entries with same | perm
  · rw [same]
    exact member
  · exact perm.mem_iff.mpr (List.mem_cons_of_mem _ member)

omit [Trans (fun left right : Key => left < right) (fun left right => left < right)
  (fun left right => left < right)] in
theorem insertEntry_perm [Std.Trichotomous fun left right : Key => left < right] {key : Key}
    (value : Value) {entries : List (Key × Value)} (absent : ∀ entry ∈ entries, entry.1 ≠ key) :
    (insertEntry key value entries).Perm ((key, value) :: entries) := by
  induction entries with
  | nil => exact List.Perm.refl _
  | cons entry entries induction =>
      rcases List.forall_mem_cons.mp absent with ⟨first, later⟩
      rw [insertEntry]
      split
      · exact List.Perm.refl _
      · next notBefore =>
        split
        · exact ((induction later).cons entry).trans (List.Perm.swap _ _ _)
        · next notAfter => exact absurd (Std.Trichotomous.trichotomous _ _ notAfter notBefore) first

/-! ## Setting and erasing -/

def erase [DecidableEq Key] (map : SortedMap Key Value) (key : Key) : SortedMap Key Value where
  entries := map.entries.filter fun entry => entry.1 ≠ key
  sorted := map.sorted.filter _

/-- The map with the key's entry replaced, or without one. -/
def set [DecidableEq Key] (map : SortedMap Key Value) (key : Key) :
    Option Value → SortedMap Key Value
  | none => map.erase key
  | some value => (map.erase key).insert key value

omit [DecidableLT Key] [Trans (fun left right : Key => left < right)
  (fun left right => left < right) (fun left right => left < right)] in
theorem mem_erase [DecidableEq Key] {key : Key} {entry : Key × Value} :
    entry ∈ (map.erase key).entries ↔ entry ∈ map.entries ∧ entry.1 ≠ key := by
  simp only [erase, List.mem_filter, decide_eq_true_eq]

theorem mem_set [DecidableEq Key] [Std.Trichotomous fun left right : Key => left < right]
    {key : Key} {value : Option Value} {entry : Key × Value} :
    entry ∈ (map.set key value).entries ↔
      if entry.1 = key then value = some entry.2 else entry ∈ map.entries := by
  cases value with
  | none =>
      rw [set, mem_erase]
      by_cases same : entry.1 = key
      · simp [same]
      · simp [same]
  | some value =>
      have absent : ∀ other ∈ (map.erase key).entries, other.1 ≠ key := by
        intro other member
        exact (mem_erase.mp member).2
      rw [set, entries_insert, (insertEntry_perm value absent).mem_iff, List.mem_cons,
        mem_erase]
      rcases entry with ⟨entryKey, entryValue⟩
      by_cases same : entryKey = key
      · simp [same, eq_comm]
      · simp [same]

theorem sum_insert_le (map : SortedMap Key Value) (weight : Key × Value → Nat) (key : Key)
    (value : Value) :
    ((map.insert key value).entries.map weight).sum ≤
      (map.entries.map weight).sum + weight (key, value) := by
  rw [entries_insert]
  rcases insertEntry_cases key value map.entries with same | perm
  · rw [same]
    omega
  · have sums := (perm.map weight).sum_nat
    rw [List.map_cons, List.sum_cons] at sums
    omega

theorem entries_insert_last [Std.Asymm fun left right : Key => left < right] {key : Key}
    (value : Value) (last : ∀ entry ∈ map.entries, entry.1 < key) :
    (map.insert key value).entries = map.entries ++ [(key, value)] := by
  have each : ∀ entries : List (Key × Value), (∀ entry ∈ entries, entry.1 < key) →
      insertEntry key value entries = entries ++ [(key, value)] := by
    intro entries before
    induction entries with
    | nil => rfl
    | cons entry entries induction =>
        rcases List.forall_mem_cons.mp before with ⟨first, others⟩
        rw [insertEntry, if_neg (Std.Asymm.asymm _ _ first), if_pos first, induction others,
          List.cons_append]
  exact each map.entries last

/-! ## Looking up -/

theorem lookup_insert [DecidableEq Key] [BEq Key] [LawfulBEq Key]
    [Std.Irrefl fun left right : Key => left < right]
    [Std.Trichotomous fun left right : Key => left < right] (map : SortedMap Key Value)
    (key other : Key) (value : Value) :
    (map.insert key value).entries.lookup other =
      (map.entries.lookup other).or (if other = key then some value else none) := by
  rw [entries_insert]
  have sorted := map.sorted
  generalize map.entries = entries at sorted ⊢
  induction entries with
  | nil =>
      by_cases same : other = key
      · simp [insertEntry, same]
      · simp [insertEntry, List.lookup_cons, same, beq_eq_false_iff_ne.mpr same]
  | cons entry entries induction =>
      rcases List.pairwise_cons.mp sorted with ⟨first, rest⟩
      rw [insertEntry]
      split
      · next before =>
        have absent : (entry :: entries).lookup key = none := by
          rw [List.lookup_eq_none_iff]
          intro item member
          rw [bne_iff_ne]
          rintro rfl
          rcases List.mem_cons.mp member with rfl | later
          · exact Std.Irrefl.irrefl _ before
          · exact Std.Irrefl.irrefl _ (Trans.trans before (first item later))
        by_cases same : other = key
        · rw [same, absent, List.lookup_cons_self, if_pos rfl]
          rfl
        · rw [if_neg same, Option.or_none, List.lookup_cons, beq_eq_false_iff_ne.mpr same]
      · next notBefore =>
        split
        · rw [List.lookup_cons, List.lookup_cons, induction rest]
          split <;> rfl
        · next notAfter =>
          have key_eq := Std.Trichotomous.trichotomous _ _ notAfter notBefore
          by_cases same : other = key
          · rw [List.lookup_cons, same, key_eq]
            simp
          · rw [if_neg same, Option.or_none]

end

omit [DecidableLT Key] in
theorem value_unique [Std.Irrefl fun left right : Key => left < right]
    {map : SortedMap Key Value} {key : Key} {left right : Value}
    (leftMember : (key, left) ∈ map.entries) (rightMember : (key, right) ∈ map.entries) :
    left = right := by
  have apart : ∀ {first second : Key × Value}, first.1 < second.1 → first.1 ≠ second.1 := by
    intro first second less same
    rw [same] at less
    exact Std.Irrefl.irrefl _ less
  have each := List.Pairwise.forall_of_forall_of_flip
    (R := fun first second : Key × Value => first.1 = second.1 → first.2 = second.2)
    (fun _ _ _ => rfl) (map.sorted.imp fun less same => absurd same (apart less))
    (map.sorted.imp fun less same => absurd same.symm (apart less))
  exact each leftMember rightMember rfl

end SortedMap

end MyBookSources
