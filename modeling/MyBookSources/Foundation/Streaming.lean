import Mathlib.Data.List.Basic

/-! # Streaming coders

A coder that is called with some input and a window for its output, takes input from the
front and hands out output until one of the two is used up. What it still holds back
when it has taken all input only comes with further calls.
-/

namespace MyBookSources.Streaming

structure Call (State Status Output : Type) where
  status : Status
  taken : Nat
  output : List Output
  state : State

abbrev Coder (State Status Input Output : Type) : Type :=
  State → List Input → Nat → Call State Status Output

variable {State Status Input Output : Type}

/-- Where calls with full windows can lead while there is input: the coder's state, the
input that is left and what was handed out. -/
inductive Reached (coder : Coder State Status Input Output) (window : Nat) (first : State)
    (input : List Input) : State → List Input → List Output → Prop
  | start : Reached coder window first input first input []
  | call {state rest handed} :
      Reached coder window first input state rest handed → rest ≠ [] →
      Reached coder window first input (coder state rest window).state
        (rest.drop (coder state rest window).taken) (handed ++ (coder state rest window).output)

/-- What is promised of the calls on one input, whose complete output is `whole`. -/
structure Streams (coder : Coder State Status Input Output) (good : Status) (window : Nat)
    (first : State) (input : List Input) (whole : List Output) : Prop where
  status : ∀ {state rest handed}, Reached coder window first input state rest handed →
    rest ≠ [] → (coder state rest window).status = good
  taken_le : ∀ {state rest handed}, Reached coder window first input state rest handed →
    rest ≠ [] → (coder state rest window).taken ≤ rest.length
  output_le : ∀ {state rest handed}, Reached coder window first input state rest handed →
    rest ≠ [] → (coder state rest window).output.length ≤ window
  handed_isPrefix : ∀ {state rest handed}, Reached coder window first input state rest handed →
    rest ≠ [] → handed ++ (coder state rest window).output <+: whole
  /-- A call ends when the input or the window is used up. -/
  exhausts : ∀ {state rest handed}, Reached coder window first input state rest handed →
    rest ≠ [] → (coder state rest window).taken = rest.length ∨
      (coder state rest window).output.length = window
  /-- Nothing is held back by a call that takes all input and has room left. -/
  complete : ∀ {state rest handed}, Reached coder window first input state rest handed →
    rest ≠ [] → (coder state rest window).taken = rest.length →
    (coder state rest window).output.length < window →
    handed ++ (coder state rest window).output = whole

/-- The input is used up by the call with this number, when each call gets a full window. -/
inductive UsedUpBy (coder : Coder State Status Input Output) (window : Nat) :
    State → List Input → Nat → Prop
  | last {state rest} : rest.length ≤ (coder state rest window).taken →
      UsedUpBy coder window state rest 1
  | more {state rest calls} : (coder state rest window).taken < rest.length →
      UsedUpBy coder window (coder state rest window).state
        (rest.drop (coder state rest window).taken) calls →
      UsedUpBy coder window state rest (calls + 1)

section

variable {coder : Coder State Status Input Output} {window : Nat}

theorem UsedUpBy.pos {state : State} {rest : List Input} {calls : Nat}
    (used : UsedUpBy coder window state rest calls) : 0 < calls := by
  cases used with
  | last _ => exact Nat.zero_lt_one
  | more _ _ => exact Nat.succ_pos _

theorem drop_ne_nil {rest : List Input} {taken : Nat} (part : taken < rest.length) :
    rest.drop taken ≠ [] := by
  intro empty
  have size := congrArg List.length empty
  rw [List.length_drop, List.length_nil] at size
  omega

variable {good : Status} {first : State} {input : List Input} {whole : List Output}
  (streams : Streams coder good window first input whole)

include streams

/-- A call hands out what is still to come, as much of it as fits the window. -/
theorem Streams.output_eq {state : State} {rest : List Input} {handed : List Output}
    (reached : Reached coder window first input state rest handed) (left : rest ≠ []) :
    (coder state rest window).output = (whole.drop handed.length).take window := by
  rcases streams.handed_isPrefix reached left with ⟨later, parts⟩
  have ahead : whole.drop handed.length = (coder state rest window).output ++ later := by
    rw [← parts, List.append_assoc, List.drop_left]
  rw [ahead]
  have fits := streams.output_le reached left
  rcases Nat.lt_or_eq_of_le fits with room | full
  · have all : (coder state rest window).taken = rest.length := by
      rcases streams.exhausts reached left with all | full
      · exact all
      · exact absurd full (Nat.ne_of_lt room)
    have done := streams.complete reached left all room
    have none : later = [] := by
      rw [done] at parts
      exact List.append_right_eq_self.mp parts
    rw [none, List.append_nil, List.take_of_length_le fits]
  · exact (List.take_left' full).symm

/-- The input is used up at some call, for the complete output is finite. -/
theorem Streams.exists_usedUpBy (room : 0 < window) {state : State} {rest : List Input}
    {handed : List Output} (reached : Reached coder window first input state rest handed)
    (left : rest ≠ []) : ∃ calls, UsedUpBy coder window state rest calls := by
  generalize measure : whole.length - handed.length = ahead
  induction ahead using Nat.strongRecOn generalizing state rest handed with
  | ind ahead induction =>
      rcases Nat.lt_or_ge (coder state rest window).taken rest.length with part | all
      · have full : (coder state rest window).output.length = window := by
          rcases streams.exhausts reached left with used | full
          · omega
          · exact full
        have within := (streams.handed_isPrefix reached left).length_le
        rw [List.length_append] at within
        have closer :
            whole.length - (handed ++ (coder state rest window).output).length < ahead := by
          rw [List.length_append]
          omega
        rcases induction _ closer (.call reached left) (drop_ne_nil part) rfl with ⟨calls, used⟩
        exact ⟨calls + 1, .more part used⟩
      · exact ⟨1, .last all⟩

end

end MyBookSources.Streaming
