import MyBookSources.Foundation.Bytes

/-! # Writing to a buffer piece by piece

A function copies one piece behind the other to a buffer. The pieces leave what one write of
them all would, and they are inside the buffer exactly if they fit together.
-/

namespace MyBookSources.SequentialWrites

structure Write where
  start : Nat
  bytes : Bytes
  deriving DecidableEq

def Write.Inside (size : Nat) (write : Write) : Prop :=
  write.bytes = [] ∨ write.start + write.bytes.length ≤ size

instance (size : Nat) (write : Write) : Decidable (write.Inside size) :=
  inferInstanceAs (Decidable (_ ∨ _))

def Write.at (write : Write) (place : Nat) : Option Byte :=
  if write.start ≤ place then write.bytes[place - write.start]? else none

def content : List Write → Nat → Option Byte
  | [], _ => none
  | write :: rest, place => (content rest place).or (write.at place)

/-- The pieces as they are written, with `count` bytes written already. -/
def placed : Nat → List Bytes → List Write
  | _, [] => []
  | count, piece :: rest => ⟨count, piece⟩ :: placed (count + piece.length) rest

theorem placed_append (front back : List Bytes) (count : Nat) :
    placed count (front ++ back) =
      placed count front ++ placed (count + front.flatten.length) back := by
  induction front generalizing count with
  | nil => rfl
  | cons piece rest induction =>
      rw [List.cons_append, placed, placed, induction, List.flatten_cons, List.length_append,
        Nat.add_assoc]
      rfl

theorem placed_concat (front : List Bytes) (piece : Bytes) :
    placed 0 (front ++ [piece]) = placed 0 front ++ [⟨front.flatten.length, piece⟩] := by
  rw [placed_append, Nat.zero_add]
  rfl

/-! ## Pieces inside the buffer -/

theorem placed_inside_iff {size : Nat} (pieces : List Bytes) {count : Nat}
    (room : count ≤ size) :
    (∀ write ∈ placed count pieces, write.Inside size) ↔
      count + pieces.flatten.length ≤ size := by
  induction pieces generalizing count with
  | nil => simpa [placed] using room
  | cons piece rest induction =>
      rw [placed, List.forall_mem_cons, List.flatten_cons, List.length_append]
      by_cases fits : count + piece.length ≤ size
      · rw [induction fits, and_iff_right, Nat.add_assoc]
        exact .inr fits
      · refine iff_of_false ?_ (by omega)
        rintro ⟨empty | inside, _⟩
        · change piece = [] at empty
          rw [empty, List.length_nil] at fits
          omega
        · exact fits inside

/-! ## What the pieces leave -/

theorem at_nil (start place : Nat) : (Write.mk start []).at place = none := by
  rw [Write.at, List.getElem?_nil, ite_self]

theorem at_of_ge {start place : Nat} {bytes : Bytes} (behind : start + bytes.length ≤ place) :
    (Write.mk start bytes).at place = none := by
  have inside : bytes.length ≤ place - start := by omega
  rw [Write.at, List.getElem?_eq_none inside, ite_self]

theorem at_append (start place : Nat) (left right : Bytes) :
    (Write.mk start (left ++ right)).at place =
      ((Write.mk (start + left.length) right).at place).or ((Write.mk start left).at place) := by
  by_cases behind : start + left.length ≤ place
  · have inside : start ≤ place := by omega
    have gap : place - start = left.length + (place - (start + left.length)) := by omega
    rw [at_of_ge behind, Option.or_none, Write.at, Write.at, if_pos behind, if_pos inside, gap,
      List.getElem?_append_right (Nat.le_add_right _ _), Nat.add_sub_cancel_left]
  · rw [Write.at, Write.at, Write.at, if_neg behind, Option.none_or]
    by_cases inside : start ≤ place
    · have near : place - start < left.length := by omega
      rw [if_pos inside, if_pos inside, List.getElem?_append_left near]
    · rw [if_neg inside, if_neg inside]

/-- Pieces in a row leave what one write of them all would. -/
theorem content_placed (pieces : List Bytes) (count place : Nat) :
    content (placed count pieces) place = (Write.mk count pieces.flatten).at place := by
  induction pieces generalizing count with
  | nil => exact (at_nil count place).symm
  | cons piece rest induction =>
      rw [placed, content, induction, List.flatten_cons, at_append]

theorem at_eq_iff (left right : Bytes) :
    (∀ place, (Write.mk 0 left).at place = (Write.mk 0 right).at place) ↔ left = right := by
  constructor
  · intro same
    exact List.ext_getElem? same
  · rintro rfl place
    rfl

end MyBookSources.SequentialWrites
