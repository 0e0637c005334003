import MyBookSources.Foundation.Incremental

/-! # Readers that take all they can

A reader that takes items from the front each time a chunk arrives, until it has to wait for
more. As long as it refuses nothing, what it does depends on the stream and not on how the
stream was cut into chunks.
-/

namespace MyBookSources.Draining

open Incremental (Span)

structure Reader (State Element Event : Type) where
  span : List Element → Span
  /-- What is done with an item; `none` where that fails. -/
  take : State → List Element → Option (State × List Event)
  span_le : ∀ {elements count}, span elements = .takes count → count ≤ elements.length
  /-- What the reader does not wait for does not depend on later elements. -/
  span_append : ∀ {elements} later, span elements ≠ .waits →
    span (elements ++ later) = span elements

namespace Reader

variable {State Element Event : Type} (reader : Reader State Element Event)

/-- From a state with unread elements to the state where the reader waits again. -/
inductive Drains : State → List Element → State → List Element → List Event → Prop
  | waits {state unread} : reader.span unread = .waits → Drains state unread state unread []
  | takes {state unread count next events last rest others} :
      reader.span unread = .takes count →
      reader.take state (unread.take count) = some (next, events) →
      Drains next (unread.drop count) last rest others →
      Drains state unread last rest (events ++ others)

inductive DrainsAll : State → List Element → List (List Element) → State → List Element →
    List Event → Prop
  | nil {state unread} : DrainsAll state unread [] state unread []
  | cons {state unread chunk chunks next left events last rest others} :
      reader.Drains state (unread ++ chunk) next left events →
      DrainsAll next left chunks last rest others →
      DrainsAll state unread (chunk :: chunks) last rest (events ++ others)

variable {reader} {state last : State} {unread rest : List Element} {events : List Event}

theorem Drains.rest_waits (drains : reader.Drains state unread last rest events) :
    reader.span rest = .waits := by
  induction drains with
  | waits waits => exact waits
  | takes _ _ _ induction => exact induction

theorem Drains.of_waits (drains : reader.Drains state unread last rest events)
    (waits : reader.span unread = .waits) : last = state ∧ rest = unread ∧ events = [] := by
  cases drains with
  | waits _ => exact ⟨rfl, rfl, rfl⟩
  | takes takes _ _ =>
      rw [waits] at takes
      cases takes

theorem Drains.append (drains : reader.Drains state unread last rest events)
    {later behind : List Element} {final : State} {others : List Event}
    (goesOn : reader.Drains last (rest ++ later) final behind others) :
    reader.Drains state (unread ++ later) final behind (events ++ others) := by
  induction drains with
  | waits _ => exact goesOn
  | @takes state unread count next events last rest more takes taken _ induction =>
      have inside := reader.span_le takes
      have longer : reader.span (unread ++ later) = .takes count := by
        rw [reader.span_append later (by rw [takes]; simp), takes]
      rw [List.append_assoc]
      apply Drains.takes longer
      · rw [List.take_append_of_le_length inside]
        exact taken
      · rw [List.drop_append_of_le_length inside]
        exact induction goesOn

theorem Drains.cut {later : List Element}
    (drains : reader.Drains state (unread ++ later) last rest events) :
    ∃ next left first others, reader.Drains state unread next left first ∧
      reader.Drains next (left ++ later) last rest others ∧ events = first ++ others := by
  generalize whole : unread ++ later = stream at drains
  induction drains generalizing unread with
  | @waits state stream waits =>
      subst whole
      cases front : reader.span unread with
      | waits =>
          exact ⟨state, unread, [], [], .waits front, .waits waits, rfl⟩
      | takes count =>
          rw [reader.span_append later (by rw [front]; simp), front] at waits
          cases waits
      | fails =>
          rw [reader.span_append later (by rw [front]; simp), front] at waits
          cases waits
  | @takes state stream count next events last rest more takes taken others induction =>
      subst whole
      cases front : reader.span unread with
      | waits =>
          exact ⟨state, unread, [], events ++ more, .waits front,
            .takes takes taken others, rfl⟩
      | takes size =>
          have inside := reader.span_le front
          rw [reader.span_append later (by rw [front]; simp), front] at takes
          cases takes
          rw [List.take_append_of_le_length inside] at taken
          rw [List.drop_append_of_le_length inside] at induction
          rcases induction rfl with ⟨middle, left, first, behind, begins, goesOn, sum⟩
          refine ⟨middle, left, events ++ first, behind, .takes front taken begins, goesOn, ?_⟩
          rw [sum, List.append_assoc]
      | fails =>
          rw [reader.span_append later (by rw [front]; simp), front] at takes
          cases takes

/-- Chunks one after another are the same as the stream they make. -/
theorem drainsAll_iff (waits : reader.span unread = .waits) (chunks : List (List Element)) :
    reader.DrainsAll state unread chunks last rest events ↔
      reader.Drains state (unread ++ chunks.flatten) last rest events := by
  induction chunks generalizing state unread events with
  | nil =>
      rw [List.flatten_nil, List.append_nil]
      constructor
      · intro all
        cases all
        exact .waits waits
      · intro drains
        rcases drains.of_waits waits with ⟨rfl, rfl, rfl⟩
        exact .nil
  | cons chunk chunks induction =>
      rw [List.flatten_cons, ← List.append_assoc]
      constructor
      · intro all
        cases all with
        | cons first others => exact first.append ((induction first.rest_waits).mp others)
      · intro drains
        rcases drains.cut with ⟨next, left, first, others, begins, goesOn, rfl⟩
        exact .cons begins ((induction begins.rest_waits).mpr goesOn)

end Reader

end MyBookSources.Draining
