import MyBookSources.Foundation.Streaming

/-! # Transducers as streaming coders

A contract of single calls, where the state of a coder and the input it is given determine what
is still to be handed out; and the coder of a transducer that keeps the output a window has no
room for.
-/

namespace MyBookSources.Streaming

variable {State Status Input Output : Type}

/-- What each call promises, where `determined` is what is to come of a state and an input. -/
structure Determines (coder : Coder State Status Input Output) (good ended : Status)
    (window : Nat) (determined : State → List Input → List Output) : Prop where
  taken_le : ∀ state rest, (coder state rest window).taken ≤ rest.length
  output_le : ∀ state rest, (coder state rest window).output.length ≤ window
  continues : ∀ state rest, (coder state rest window).status = good →
    determined state rest = (coder state rest window).output ++
      determined (coder state rest window).state (rest.drop (coder state rest window).taken)
  /-- A call ends when the input or the window is used up. -/
  exhausts : ∀ state rest, (coder state rest window).status = good →
    (coder state rest window).taken = rest.length ∨
      (coder state rest window).output.length = window
  /-- Nothing is held back by a call that has room left. -/
  complete : ∀ state rest, (coder state rest window).status = good →
    (coder state rest window).output.length < window →
    determined (coder state rest window).state [] = []
  ends : ∀ state rest, (coder state rest window).status = ended →
    determined state rest = (coder state rest window).output
  /-- Input that is behind changes nothing of what is handed out before. -/
  monotone : ∀ state {front rest}, front <+: rest → determined state front <+: determined state rest

/-- A call that takes all input holds nothing back exactly if its window has room for what was
to come. -/
theorem Determines.nothing_held_back_iff {coder : Coder State Status Input Output}
    {good ended : Status} {window : Nat} {determined : State → List Input → List Output}
    (determines : Determines coder good ended window determined) {state : State}
    {rest : List Input} (status : (coder state rest window).status = good)
    (all : (coder state rest window).taken = rest.length) :
    determined (coder state rest window).state [] = [] ↔
      (determined state rest).length ≤ window := by
  have parts := determines.continues state rest status
  rw [all, List.drop_length] at parts
  have within := determines.output_le state rest
  constructor
  · intro nothing
    rw [parts, nothing, List.append_nil]
    exact within
  · intro fits
    rcases Nat.lt_or_ge (coder state rest window).output.length window with room | full
    · exact determines.complete state rest status room
    · rw [parts, List.length_append] at fits
      exact List.length_eq_zero_iff.mp (by omega)

/-! ## Transducers -/

section

variable {Inner : Type} (step : Inner → Input → Option (Inner × List Output))

def outputs : Inner → List Input → List Output
  | _, [] => []
  | inner, symbol :: rest =>
      match step inner symbol with
      | none => []
      | some (next, made) => made ++ outputs next rest

def takeSymbols : Inner → List Input → Nat → Option (Inner × Nat × List Output)
  | inner, [], _ => some (inner, 0, [])
  | inner, symbol :: rest, room =>
      if room = 0 then some (inner, 0, [])
      else
        match step inner symbol with
        | none => none
        | some (next, made) =>
            (takeSymbols next rest (room - made.length)).map fun later =>
              (later.1, later.2.1 + 1, made ++ later.2.2)

structure Buffered (Inner Output : Type) where
  inner : Inner
  pending : List Output

/-- What does not fit the window is handed out by later calls. A call that can do nothing is
bad, as is one that meets a symbol that is refused. -/
def buffered (good bad : Status) : Coder (Buffered Inner Output) Status Input Output :=
  fun state input window =>
    match takeSymbols step state.inner input (window - state.pending.length) with
    | none => ⟨bad, 0, [], state⟩
    | some (inner, taken, made) =>
        let produced := state.pending ++ made
        { status := if taken = 0 ∧ produced = [] then bad else good
          taken := taken
          output := produced.take window
          state := ⟨inner, produced.drop window⟩ }

theorem takeSymbols_spec {inner next : Inner} {input : List Input} {room taken : Nat}
    {made : List Output} (takes : takeSymbols step inner input room = some (next, taken, made)) :
    taken ≤ input.length ∧ (taken = input.length ∨ room ≤ made.length) ∧
      outputs step inner input = made ++ outputs step next (input.drop taken) := by
  induction input generalizing inner room taken made with
  | nil =>
      cases takes
      simp [outputs]
  | cons symbol rest induction =>
      rw [takeSymbols] at takes
      split at takes
      · next full =>
        cases takes
        simp [full]
      · split at takes
        · cases takes
        · next after first taken_first =>
          rcases Option.map_eq_some_iff.mp takes with ⟨⟨last, more, later⟩, rest_takes, same⟩
          cases same
          rcases induction rest_takes with ⟨within, used, parts⟩
          refine ⟨?_, ?_, ?_⟩
          · simpa using within
          · simp only [List.length_cons, List.length_append]
            omega
          · rw [outputs, taken_first, List.drop_succ_cons, List.append_assoc, ← parts]

theorem outputs_isPrefix {front input : List Input} (isPrefix : front <+: input) (inner : Inner) :
    outputs step inner front <+: outputs step inner input := by
  induction front generalizing input inner with
  | nil => exact List.nil_prefix
  | cons symbol front induction =>
      rcases isPrefix with ⟨later, rfl⟩
      rw [List.cons_append, outputs, outputs]
      cases step inner symbol with
      | none => exact List.prefix_rfl
      | some result =>
          exact (List.prefix_append_right_inj _).mpr (induction (List.prefix_append _ _) _)

theorem buffered_determines {good bad ended : Status} (badNotGood : bad ≠ good)
    (goodNotEnded : good ≠ ended) (badNotEnded : bad ≠ ended) (window : Nat) :
    Determines (buffered step good bad) good ended window
      (fun state input => state.pending ++ outputs step state.inner input) := by
  constructor
  · intro state rest
    rw [buffered]
    split
    · exact Nat.zero_le _
    · next takes => exact (takeSymbols_spec step takes).1
  · intro state rest
    rw [buffered]
    split
    · exact Nat.zero_le _
    · exact List.length_take_le _ _
  · intro state rest status
    rw [buffered] at status ⊢
    split
    · next refused =>
      rw [refused] at status
      exact absurd status badNotGood
    · next inner taken made takes =>
      rw [(takeSymbols_spec step takes).2.2, ← List.append_assoc, ← List.append_assoc,
        List.take_append_drop]
  · intro state rest status
    rw [buffered] at status ⊢
    split
    · next refused =>
      rw [refused] at status
      exact absurd status badNotGood
    · next inner taken made takes =>
      rcases (takeSymbols_spec step takes).2.1 with all | full
      · exact .inl all
      · right
        rw [List.length_take, List.length_append]
        omega
  · intro state rest status room
    rw [buffered] at status room ⊢
    split
    · next refused =>
      rw [refused] at status
      exact absurd status badNotGood
    · next inner taken made takes =>
      rw [takes] at room
      have short : (state.pending ++ made).length ≤ window := by
        rw [List.length_take] at room
        omega
      rw [outputs, List.append_nil]
      exact List.drop_eq_nil_of_le short
  · intro state rest status
    rw [buffered] at status
    split at status
    · exact absurd status badNotEnded
    · dsimp only at status
      split at status
      · exact absurd status badNotEnded
      · exact absurd status goodNotEnded
  · intro state front rest isPrefix
    exact (List.prefix_append_right_inj _).mpr (outputs_isPrefix step isPrefix _)

end

end MyBookSources.Streaming
