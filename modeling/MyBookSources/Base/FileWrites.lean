import MyBookSources.Base.LogRolling

/-! # Writing a text to a log file

`WriteToFile` goes on until `fwrite` has taken all of the text, or takes nothing.
-/

namespace MyBookSources.Base.CAsyncLog

/-- How many bytes each call of `fwrite` takes of those it is given. -/
structure LogFile where
  takes : (call size : Nat) → Nat
  within : ∀ call size, takes call size ≤ size

def writeLoop (file : LogFile) : (turns call : Nat) → (strLocal taken : Bytes) →
    Option (Bool × Bytes)
  | 0, _, _, _ => none
  | turns + 1, call, strLocal, taken =>
      let accepted := file.takes call strLocal.length
      let taken := taken ++ strLocal.take accepted
      let ret := int32 accepted
      if ret ≤ 0 then some (false, taken)
      else
        let strLocal :=
          if ret ≤ int32 strLocal.length then strLocal.drop ret.toNat else strLocal
        if strLocal.isEmpty then some (true, taken)
        else writeLoop file turns (call + 1) strLocal taken

/-- What the function returns, and the bytes that the file has taken. -/
def writeToFile (file : LogFile) (turns : Nat) (data : Bytes) : Option (Bool × Bytes) :=
  writeLoop file turns 0 data []

theorem writeLoop_succ (file : LogFile) (turns call : Nat) {strLocal : Bytes} (taken : Bytes)
    (small : strLocal.length < 2 ^ 31) :
    let count := file.takes call strLocal.length
    writeLoop file (turns + 1) call strLocal taken =
      if count = 0 then some (false, taken ++ strLocal.take count)
      else if strLocal.drop count = [] then some (true, taken ++ strLocal.take count)
      else writeLoop file turns (call + 1) (strLocal.drop count)
        (taken ++ strLocal.take count) := by
  intro count
  have within : count ≤ strLocal.length := file.within call strLocal.length
  have ret : int32 count = count := int32_of_lt (by omega)
  have fits : (count : Int) ≤ int32 strLocal.length := by
    rw [int32_of_lt small]
    omega
  rw [writeLoop]
  dsimp only
  change (if int32 count ≤ 0 then _ else _) = _
  rw [ret]
  by_cases none : count = 0
  · rw [if_pos none, if_pos (by omega)]
  · rw [if_neg none, if_neg (by omega), if_pos fits, Int.toNat_natCast]
    simp only [List.isEmpty_iff]
    rfl

theorem writeLoop_returns (file : LogFile) {data strLocal taken : Bytes} (call : Nat)
    (small : strLocal.length < 2 ^ 31) (whole : taken ++ strLocal = data) :
    ∃ result written, (∀ turns, strLocal.length < turns →
        writeLoop file turns call strLocal taken = some (result, written)) ∧
      written <+: data ∧ (result = true → written = data) := by
  induction size : strLocal.length using Nat.strong_induction_on
    generalizing call strLocal taken with
  | _ length induction =>
      subst size
      have turn := fun turns => writeLoop_succ file turns call taken small
      generalize file.takes call strLocal.length = count at turn
      have rest : (taken ++ strLocal.take count) ++ strLocal.drop count = data := by
        rw [List.append_assoc, List.take_append_drop, whole]
      have front : taken ++ strLocal.take count <+: data := ⟨_, rest⟩
      by_cases none : count = 0
      · refine ⟨false, taken ++ strLocal.take count, fun turns more => ?_, front, fun all => ?_⟩
        · rcases Nat.exists_eq_add_of_lt more with ⟨later, rfl⟩
          rw [turn, if_pos none]
        · cases all
      by_cases done : strLocal.drop count = []
      · refine ⟨true, taken ++ strLocal.take count, fun turns more => ?_, front, fun _ => ?_⟩
        · rcases Nat.exists_eq_add_of_lt more with ⟨later, rfl⟩
          rw [turn, if_neg none, if_pos done]
        · rwa [done, List.append_nil] at rest
      · have shorter : (strLocal.drop count).length < strLocal.length := by
          have filled := List.length_pos_iff.mpr done
          rw [List.length_drop] at filled ⊢
          omega
        rcases induction _ shorter (call + 1) (shorter.trans small) rest rfl with
          ⟨result, written, returns, others⟩
        refine ⟨result, written, fun turns more => ?_, others⟩
        rcases Nat.exists_eq_add_of_lt more with ⟨later, rfl⟩
        rw [turn, if_neg none, if_neg done, returns _ (by omega)]

/-- A file that takes whatever it is given, as the rolling of the log files supposes. -/
def wholeFile : LogFile := ⟨fun _ size => size, fun _ size => Nat.le_refl size⟩

theorem writeLoop_wholeFile_succ (turns call : Nat) (strLocal taken : Bytes) :
    writeLoop wholeFile (turns + 1) call strLocal taken =
      if int32 strLocal.length ≤ 0 then some (false, taken ++ strLocal)
      else if (strLocal.drop (int32 strLocal.length).toNat).isEmpty then
        some (true, taken ++ strLocal)
      else writeLoop wholeFile turns (call + 1) (strLocal.drop (int32 strLocal.length).toNat)
        (taken ++ strLocal) := by
  rw [writeLoop]
  simp only [wholeFile, List.take_length, Int.le_refl, if_true]

/-- On such a file the function is the one that the rolling uses. -/
theorem writeLoop_wholeFile (strLocal : Bytes) {turns : Nat} (call : Nat) (taken : Bytes)
    (enough : strLocal.length < turns) :
    writeLoop wholeFile turns call strLocal taken =
      some ((WriteToFile strLocal).2, taken ++ (WriteToFile strLocal).1) := by
  fun_induction WriteToFile strLocal generalizing turns call taken with
  | case1 data ret positive rest =>
      rename_i done
      rcases Nat.exists_eq_add_of_lt enough with ⟨later, rfl⟩
      rw [writeLoop_wholeFile_succ, if_neg (Int.not_le.mpr positive), if_pos done]
  | case2 data ret positive rest some_byte more result same =>
      rename_i induction
      rcases Nat.exists_eq_add_of_lt enough with ⟨later, rfl⟩
      have inData := int32_le data.length
      have shorter : rest.length < data.length + later := by
        rw [List.length_drop]
        omega
      rw [writeLoop_wholeFile_succ, if_neg (Int.not_le.mpr positive), if_neg some_byte,
        induction _ _ shorter, same, List.append_assoc]
  | case3 data ret =>
      rename_i none
      rcases Nat.exists_eq_add_of_lt enough with ⟨later, rfl⟩
      rw [writeLoop_wholeFile_succ, if_pos (Int.not_lt.mp none)]

/-- A file that takes two bytes at a time. -/
def slowFile : LogFile := ⟨fun _ size => min 2 size, fun _ size => Nat.min_le_right 2 size⟩

example : writeToFile slowFile 4 [97, 98, 99] = some (true, [97, 98, 99]) := by decide

end MyBookSources.Base.CAsyncLog
