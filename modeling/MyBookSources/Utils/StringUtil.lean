import MyBookSources.Foundation.Bytes

/-! # String utilities

`StringUtil`, as far as the WebSocket handshake uses it. A result is `none` where the
source does not end or reads outside a string.
-/

namespace MyBookSources.StringUtil

/-- `std::string::find`: where `pattern` first occurs. -/
def find (pattern : Bytes) : Bytes → Option Nat
  | [] => if pattern.isEmpty then some 0 else none
  | byte :: rest =>
      if pattern.isPrefixOf (byte :: rest) then some 0
      else (find pattern rest).map (· + 1)

theorem find_le {pattern str : Bytes} {pos : Nat} (found : find pattern str = some pos) :
    pos + pattern.length ≤ str.length := by
  induction str generalizing pos with
  | nil =>
      rw [find] at found
      split at found
      · next empty =>
          cases found
          simp [List.isEmpty_iff.mp empty]
      · cases found
  | cons byte rest induction =>
      rw [find] at found
      split at found
      · next front =>
          cases found
          have within := (List.isPrefixOf_iff_prefix.mp front).length_le
          omega
      · rcases Option.map_eq_some_iff.mp found with ⟨pos', foundRest, rfl⟩
        have within := induction foundRest
        rw [List.length_cons]
        omega

theorem find_append {pattern str : Bytes} {pos : Nat} (found : find pattern str = some pos)
    (later : Bytes) : find pattern (str ++ later) = some pos := by
  induction str generalizing pos with
  | nil =>
      rw [find] at found
      split at found
      · next empty =>
          cases found
          cases later <;> simp [find, List.isEmpty_iff.mp empty]
      · cases found
  | cons byte rest induction =>
      have within := find_le found
      rw [find] at found
      rw [List.cons_append, find, ← List.cons_append]
      split at found
      · next front =>
          cases found
          have longer : pattern.isPrefixOf (byte :: rest ++ later) = true := by
            rw [List.isPrefixOf_iff_prefix] at front ⊢
            exact front.trans (List.prefix_append _ _)
          rw [if_pos longer]
      · next notFront =>
          rcases Option.map_eq_some_iff.mp found with ⟨pos', foundRest, rfl⟩
          have notLonger : ¬ pattern.isPrefixOf (byte :: rest ++ later) = true := by
            intro front
            rw [List.isPrefixOf_iff_prefix] at front notFront
            have short : pattern.length ≤ (byte :: rest).length := by omega
            exact notFront (List.prefix_of_prefix_length_le front (List.prefix_append _ _) short)
          rw [if_neg notLonger, induction foundRest]
          rfl

theorem find_take {pattern str : Bytes} {pos count : Nat} (found : find pattern str = some pos)
    (missing : count < pos + pattern.length) : find pattern (str.take count) = none := by
  by_contra present
  rcases Option.ne_none_iff_exists'.mp present with ⟨pos', foundFront⟩
  have within := find_le foundFront
  have whole := find_append foundFront (str.drop count)
  rw [List.take_append_drop, found] at whole
  cases whole
  rw [List.length_take] at within
  omega

/-- The `while` loop of `Split`. -/
def splitLoop (delimiter : Bytes) : Nat → Bytes → Option (List Bytes)
  | 0, _ => none
  | fuel + 1, buf =>
      match find delimiter buf with
      | some pos => do
          let others ← splitLoop delimiter fuel (buf.drop (pos + delimiter.length))
          some (if pos = 0 then others else buf.take pos :: others)
      | none => some (if buf.isEmpty then [] else [buf])

def Split (str delimiter : Bytes) : Option (List Bytes) :=
  if str.isEmpty then some [] else splitLoop delimiter (str.length + 1) str

theorem splitLoop_some {delimiter : Bytes} (nonempty : delimiter ≠ []) {fuel : Nat}
    {buf : Bytes} (enough : buf.length < fuel) :
    ∃ parts, splitLoop delimiter fuel buf = some parts := by
  induction fuel generalizing buf with
  | zero => omega
  | succ fuel induction =>
      rw [splitLoop]
      cases found : find delimiter buf with
      | none => exact ⟨_, rfl⟩
      | some pos =>
          have positive := List.length_pos_iff.mpr nonempty
          have within := find_le found
          have shorter : (buf.drop (pos + delimiter.length)).length < fuel := by
            rw [List.length_drop]
            omega
          cases induction shorter with
          | intro others split =>
              dsimp only
              rw [split]
              exact ⟨_, rfl⟩

theorem Split_some (str : Bytes) {delimiter : Bytes} (nonempty : delimiter ≠ []) :
    ∃ parts, Split str delimiter = some parts := by
  rw [Split]
  split
  · exact ⟨_, rfl⟩
  · exact splitLoop_some nonempty (Nat.lt_succ_self _)

/-- The second part starts one byte after the delimiter starts. -/
def Cut (str delimiter : Bytes) : List Bytes :=
  if str.isEmpty then []
  else
    match find delimiter str with
    | none => []
    | some pos => [str.take pos, str.drop (pos + 1)].filter fun part => !part.isEmpty

/-- A string of nothing but `trimmed` is left as it is. -/
def trimLeft (str : Bytes) (trimmed : Byte) : Bytes :=
  match str.dropWhile (· == trimmed) with
  | [] => str
  | rest => rest

/-- The loop of `trimRight` from index `i - 1` down. Past index zero the unsigned index
wraps and the byte in front of `tmp` is read, which is `none` here. -/
def trimRightLoop (tmp : Bytes) (trimmed : Byte) : Nat → Option Bytes
  | 0 => none
  | i + 1 =>
      if tmp.getD i 0 ≠ trimmed then some (tmp.take (i + 1)) else trimRightLoop tmp trimmed i

def trimRight (str : Bytes) (trimmed : Byte) : Option Bytes :=
  trimRightLoop str trimmed str.length

def trim (str : Bytes) (trimmed : Byte) : Option Bytes := trimRight (trimLeft str trimmed) trimmed

/-- Empty pieces are left out. -/
example : Split (ascii "a||b|") (ascii "|") = some [ascii "a", ascii "b"] := by decide

end MyBookSources.StringUtil
