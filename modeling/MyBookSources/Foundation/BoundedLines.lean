import MyBookSources.Foundation.Bytes
import Mathlib.Data.List.Basic

/-! # Lines in buffers of a fixed size

Reading a file line by line into a buffer of a fixed size, as `fgets` does: each call ends behind
a newline, at the end of the file or when the buffer is full, so a line that is too long comes in
several pieces.
-/

namespace MyBookSources

def newline : Byte := 10

/-- What the calls read that have room for `room` bytes each; `front` has been read by the call
that is under way. -/
def boundedLines (room : Nat) (front : Bytes) : Bytes → List Bytes
  | [] => if front = [] then [] else [front]
  | byte :: rest =>
      if byte = newline ∨ front.length + 1 = room then
        (front ++ [byte]) :: boundedLines room [] rest
      else boundedLines room (front ++ [byte]) rest

namespace BoundedLines

variable {room : Nat}

/-- Nothing of the file is left out or read twice. -/
theorem flatten_boundedLines (front bytes : Bytes) :
    (boundedLines room front bytes).flatten = front ++ bytes := by
  induction bytes generalizing front with
  | nil =>
      rw [boundedLines]
      split
      · next empty => simp [empty]
      · simp
  | cons byte rest induction =>
      rw [boundedLines]
      split
      · rw [List.flatten_cons, induction, List.nil_append, List.append_assoc]
        rfl
      · rw [induction, List.append_assoc]
        rfl

theorem boundedLines_cons {front : Bytes} {byte : Byte} (plain : byte ≠ newline)
    (space : front.length + 1 ≠ room) (rest : Bytes) :
    boundedLines room front (byte :: rest) = boundedLines room (front ++ [byte]) rest := by
  rw [boundedLines, if_neg]
  rintro (same | full)
  · exact plain same
  · exact space full

theorem boundedLines_line {front line : Bytes} (plain : ∀ byte ∈ line, byte ≠ newline)
    (rest : Bytes) (fits : front.length + line.length < room) :
    boundedLines room front (line ++ newline :: rest) =
      (front ++ line ++ [newline]) :: boundedLines room [] rest := by
  induction line generalizing front with
  | nil => simp [boundedLines]
  | cons byte line induction =>
      rcases List.forall_mem_cons.mp plain with ⟨other, plainRest⟩
      rw [List.length_cons] at fits
      have longer : (front ++ [byte]).length + line.length < room := by
        rw [List.length_append, List.length_singleton]
        omega
      rw [List.cons_append, boundedLines_cons other (by omega), induction plainRest longer]
      simp

theorem boundedLines_full {front line : Bytes} (plain : ∀ byte ∈ line, byte ≠ newline)
    (rest : Bytes) (full : front.length + line.length = room) (some_byte : line ≠ []) :
    boundedLines room front (line ++ rest) = (front ++ line) :: boundedLines room [] rest := by
  induction line generalizing front with
  | nil => exact absurd rfl some_byte
  | cons byte line induction =>
      rcases List.forall_mem_cons.mp plain with ⟨other, plainRest⟩
      rw [List.length_cons] at full
      by_cases last : line = []
      · rw [last, List.length_nil] at full
        rw [last, List.cons_append, boundedLines, if_pos (.inr (by omega))]
        rfl
      · have space : front.length + 1 ≠ room := by
          have positive := List.length_pos_iff.mpr last
          omega
        have longer : (front ++ [byte]).length + line.length = room := by
          rw [List.length_append, List.length_singleton]
          omega
        rw [List.cons_append, boundedLines_cons other space, induction plainRest longer last]
        simp

theorem boundedLines_last {front line : Bytes} (plain : ∀ byte ∈ line, byte ≠ newline)
    (fits : front.length + line.length ≤ room) (some_byte : front ++ line ≠ []) :
    boundedLines room front line = [front ++ line] := by
  induction line generalizing front with
  | nil =>
      rw [List.append_nil] at some_byte ⊢
      rw [boundedLines, if_neg some_byte]
  | cons byte line induction =>
      rcases List.forall_mem_cons.mp plain with ⟨other, plainRest⟩
      rw [List.length_cons] at fits
      by_cases full : front.length + 1 = room
      · have nothing : line = [] := List.length_eq_zero_iff.mp (by omega)
        rw [nothing, boundedLines, if_pos (.inr full), boundedLines, if_pos rfl]
      · have longer : (front ++ [byte]).length + line.length ≤ room := by
          rw [List.length_append, List.length_singleton]
          omega
        rw [boundedLines_cons other full, induction plainRest longer (by simp)]
        simp

theorem boundedLines_under_way {front : Bytes} (some_byte : front ≠ []) (rest : Bytes) :
    ∃ tail more, boundedLines room front rest = (front ++ tail) :: more := by
  induction rest generalizing front with
  | nil => exact ⟨[], [], by rw [boundedLines, if_neg some_byte, List.append_nil]⟩
  | cons byte rest induction =>
      rw [boundedLines]
      split
      · exact ⟨[byte], _, rfl⟩
      · rcases @induction (front ++ [byte]) (by simp) with ⟨tail, more, same⟩
        exact ⟨byte :: tail, more, by rw [same, List.append_assoc]; rfl⟩

theorem boundedLines_front {front line : Bytes} (plain : ∀ byte ∈ line, byte ≠ newline)
    (rest : Bytes) (fits : front.length + line.length ≤ room) (some_byte : front ++ line ≠ []) :
    ∃ tail more, boundedLines room front (line ++ rest) = (front ++ line ++ tail) :: more := by
  induction line generalizing front with
  | nil =>
      rw [List.append_nil] at some_byte ⊢
      exact boundedLines_under_way some_byte rest
  | cons byte line induction =>
      rcases List.forall_mem_cons.mp plain with ⟨other, plainRest⟩
      rw [List.length_cons] at fits
      by_cases full : front.length + 1 = room
      · have nothing : line = [] := List.length_eq_zero_iff.mp (by omega)
        rw [nothing, List.cons_append, boundedLines, if_pos (.inr full)]
        exact ⟨[], _, by rw [List.append_nil]⟩
      · have longer : (front ++ [byte]).length + line.length ≤ room := by
          rw [List.length_append, List.length_singleton]
          omega
        rcases induction plainRest longer (by simp) with ⟨tail, more, same⟩
        refine ⟨tail, more, ?_⟩
        rw [List.cons_append, boundedLines_cons other full, same]
        simp

end BoundedLines

end MyBookSources
