import Mathlib.Algebra.BigOperators.Group.Finset.Basic
import Mathlib.Algebra.BigOperators.Group.Finset.Piecewise
import Mathlib.Algebra.Order.BigOperators.Group.Finset
import Mathlib.Data.Nat.Notation

/-! # Threads and the places they are at

Each thread of a program is at a place of its code, and a step moves one thread. A mutex has
an owner, which is the one thread at a place that holds it; a quantity to which each place
contributes is a sum over the threads.
-/

namespace MyBookSources.Threads

variable {Thread Place : Type}

/-- A thread at a place that holds the mutex is its owner. -/
def Exclusive (holds : Place → Bool) (owner : Option Thread) (places : Thread → Place) : Prop :=
  ∀ thread, holds (places thread) = true → owner = some thread

namespace Exclusive

variable {holds : Place → Bool} {owner : Option Thread} {places : Thread → Place}
  {thread : Thread} {place : Place}

theorem initial (away : ∀ thread, holds (places thread) = false) :
    Exclusive holds owner places := by
  intro thread held
  rw [away thread] at held
  cases held

theorem unique (exclusive : Exclusive holds owner places) {other : Thread}
    (held : holds (places thread) = true) (otherHeld : holds (places other) = true) :
    thread = other := by
  have same := (exclusive thread held).symm.trans (exclusive other otherHeld)
  exact Option.some.inj same

variable [DecidableEq Thread]

theorem acquire (exclusive : Exclusive holds none places) :
    Exclusive holds (some thread) (Function.update places thread place) := by
  intro other held
  by_cases same : other = thread
  · rw [same]
  · rw [Function.update_of_ne same] at held
    cases exclusive other held

theorem keep (exclusive : Exclusive holds owner places) (mine : holds (places thread) = true) :
    Exclusive holds owner (Function.update places thread place) := by
  intro other held
  by_cases same : other = thread
  · rw [same]
    exact exclusive thread mine
  · rw [Function.update_of_ne same] at held
    exact exclusive other held

theorem release (exclusive : Exclusive holds owner places) (mine : holds (places thread) = true)
    (away : holds place = false) :
    Exclusive holds none (Function.update places thread place) := by
  intro other held
  by_cases same : other = thread
  · rw [same, Function.update_self, away] at held
    cases held
  · rw [Function.update_of_ne same] at held
    exact absurd (exclusive.unique held mine) same

theorem outside (exclusive : Exclusive holds owner places) (away : holds place = false) :
    Exclusive holds owner (Function.update places thread place) := by
  intro other held
  by_cases same : other = thread
  · rw [same, Function.update_self, away] at held
    cases held
  · rw [Function.update_of_ne same] at held
    exact exclusive other held

end Exclusive

/-- The owner is a thread at a place that holds the mutex. -/
def Owned (holds : Place → Bool) (owner : Option Thread) (places : Thread → Place) : Prop :=
  ∀ thread, owner = some thread → holds (places thread) = true

namespace Owned

variable {holds : Place → Bool} {owner : Option Thread} {places : Thread → Place}
  {thread : Thread} {place : Place}

theorem free : Owned holds none places := by
  intro thread owns
  cases owns

variable [DecidableEq Thread]

theorem acquire (held : holds place = true) :
    Owned holds (some thread) (Function.update places thread place) := by
  intro other owns
  cases owns
  rwa [Function.update_self]

theorem keep (owned : Owned holds owner places) (held : holds place = true) :
    Owned holds owner (Function.update places thread place) := by
  intro other owns
  by_cases same : other = thread
  · rwa [same, Function.update_self]
  · rw [Function.update_of_ne same]
    exact owned other owns

theorem outside (owned : Owned holds owner places) (away : holds (places thread) = false) :
    Owned holds owner (Function.update places thread place) := by
  intro other owns
  have held := owned other owns
  rw [Function.update_of_ne]
  · exact held
  · rintro rfl
    rw [away] at held
    cases held

end Owned

/-! ## Sums over the threads -/

variable (threads : Finset Thread) (weight : Place → Nat)

def total (places : Thread → Place) : Nat := ∑ thread ∈ threads, weight (places thread)

variable {threads weight} {places : Thread → Place} {thread : Thread}

theorem weight_le_total (member : thread ∈ threads) :
    weight (places thread) ≤ total threads weight places := by
  rw [total]
  exact Finset.single_le_sum_of_canonicallyOrdered (f := fun other => weight (places other)) member

theorem total_update [DecidableEq Thread] (member : thread ∈ threads) (place : Place) :
    total threads weight (Function.update places thread place) + weight (places thread) =
      total threads weight places + weight place := by
  have moved : (fun other => weight (Function.update places thread place other)) =
      Function.update (fun other => weight (places other)) thread (weight place) := by
    funext other
    by_cases same : other = thread
    · rw [same, Function.update_self, Function.update_self]
    · rw [Function.update_of_ne same, Function.update_of_ne same]
  have before := Finset.sum_eq_sum_sdiff_singleton_add member
    (fun other => weight (places other))
  rw [total, total, moved, Finset.sum_update_of_mem member, before]
  omega

end MyBookSources.Threads
