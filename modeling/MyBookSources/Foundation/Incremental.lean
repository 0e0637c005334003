import Mathlib.Data.List.Basic

/-! # Readers of a stream that arrives in chunks

A reader that looks at most once at what it has each time a chunk arrives, and then takes
at most one item from the front. What it does with an item depends on the item and not
on what has arrived behind it, so after a stream two ways of cutting it have led to the
same place exactly when they have let the reader take equally many items.
-/

namespace MyBookSources.Incremental

inductive Span
  | waits
  | takes (count : Nat)
  | fails
  deriving DecidableEq

structure Reader (State Element Event : Type) where
  span : List Element → Span
  take : State → List Element → State × List Event
  span_le : ∀ {elements count}, span elements = .takes count → count ≤ elements.length
  /-- What the reader does not wait for does not depend on later elements. -/
  span_append : ∀ {elements} later, span elements ≠ .waits →
    span (elements ++ later) = span elements
  take_append : ∀ {elements count} state later, span elements = .takes count →
    take state (elements ++ later) = take state elements
  /-- Taking an item shows: it shortens what is unread or causes an event. -/
  progress : ∀ {elements count} state, span elements = .takes count →
    0 < count ∨ (take state elements).2 ≠ []

structure Position (State Element Event : Type) where
  state : State
  unread : List Element
  events : List Event

def itemsTaken {Element : Type} (span : List Element → Span) (unread : List Element) :
    List (List Element) → Option Nat
  | [] => some 0
  | chunk :: chunks =>
      match span (unread ++ chunk) with
      | .waits => itemsTaken span (unread ++ chunk) chunks
      | .takes count => (itemsTaken span ((unread ++ chunk).drop count) chunks).map (· + 1)
      | .fails => none

namespace Reader

variable {State Element Event : Type} (reader : Reader State Element Event)

def advanceOne (position : Position State Element Event) (count : Nat) :
    Position State Element Event where
  state := (reader.take position.state position.unread).1
  unread := position.unread.drop count
  events := position.events ++ (reader.take position.state position.unread).2

def look (position : Position State Element Event) : Option (Position State Element Event) :=
  match reader.span position.unread with
  | .waits => some position
  | .takes count => some (reader.advanceOne position count)
  | .fails => none

def feed (position : Position State Element Event) (chunk : List Element) :
    Option (Position State Element Event) :=
  reader.look { position with unread := position.unread ++ chunk }

def feedAll (position : Position State Element Event) :
    List (List Element) → Option (Position State Element Event)
  | [] => some position
  | chunk :: chunks => do
      let next ← reader.feed position chunk
      feedAll next chunks

/-- The position `count` items further, when nothing else arrives. -/
def advance : Nat → Position State Element Event → Option (Position State Element Event)
  | 0, position => some position
  | items + 1, position =>
      match reader.span position.unread with
      | .takes count => advance items (reader.advanceOne position count)
      | _ => none

theorem look_of_waits {position : Position State Element Event}
    (waits : reader.span position.unread = .waits) : reader.look position = some position := by
  rw [look, waits]

theorem look_of_takes {position : Position State Element Event} {count : Nat}
    (takes : reader.span position.unread = .takes count) :
    reader.look position = some (reader.advanceOne position count) := by
  rw [look, takes]

theorem advanceOne_append (position : Position State Element Event) {count : Nat}
    (takes : reader.span position.unread = .takes count) (later : List Element) :
    reader.advanceOne { position with unread := position.unread ++ later } count =
      { reader.advanceOne position count with
        unread := (reader.advanceOne position count).unread ++ later } := by
  simp only [advanceOne, reader.take_append _ later takes,
    List.drop_append_of_le_length (reader.span_le takes)]

/-- Being fed is advancing over the stream, by as many items as were taken. -/
theorem advance_of_feedAll {position last : Position State Element Event}
    {chunks : List (List Element)} {items : Nat}
    (run : reader.feedAll position chunks = some last)
    (taken : itemsTaken reader.span position.unread chunks = some items) :
    reader.advance items { position with unread := position.unread ++ chunks.flatten } =
      some last := by
  induction chunks generalizing position items with
  | nil =>
      cases run
      cases taken
      simp [advance]
  | cons chunk chunks induction =>
      rcases Option.bind_eq_some_iff.mp run with ⟨next, fed, rest⟩
      rw [itemsTaken] at taken
      rw [List.flatten_cons, ← List.append_assoc]
      split at taken
      · next waits =>
          rw [feed, reader.look_of_waits waits] at fed
          cases fed
          exact induction rest taken
      · next count takes =>
          rcases Option.map_eq_some_iff.mp taken with ⟨others, takenRest, rfl⟩
          rw [feed, reader.look_of_takes takes] at fed
          cases fed
          have longer : reader.span (position.unread ++ chunk ++ chunks.flatten) =
              .takes count := by
            rw [reader.span_append _ (by rw [takes]; simp), takes]
          have moved := reader.advanceOne_append
            { position with unread := position.unread ++ chunk } takes chunks.flatten
          rw [advance, longer]
          dsimp only at moved ⊢
          rw [moved]
          exact induction rest takenRest
      · cases taken

theorem feedAll_isSome (position : Position State Element Event) (chunks : List (List Element)) :
    (reader.feedAll position chunks).isSome =
      (itemsTaken reader.span position.unread chunks).isSome := by
  induction chunks generalizing position with
  | nil => rfl
  | cons chunk chunks induction =>
      rw [itemsTaken, feedAll]
      split
      · next waits =>
          rw [feed, reader.look_of_waits waits]
          exact induction _
      · next count takes =>
          rw [feed, reader.look_of_takes takes, Option.isSome_map]
          exact induction _
      · next fails =>
          rw [feed, look, fails]
          rfl

theorem advance_add (first second : Nat) (position : Position State Element Event) :
    reader.advance (first + second) position =
      (reader.advance first position).bind (reader.advance second) := by
  induction first generalizing position with
  | zero => simp [advance]
  | succ first induction =>
      rw [Nat.succ_add, advance, advance]
      split
      · exact induction _
      · rfl

theorem advance_shows {position last : Position State Element Event} {items : Nat}
    (advanced : reader.advance items position = some last) (moved : 0 < items) :
    last.unread.length < position.unread.length ∨ position.events.length < last.events.length := by
  have grows : ∀ {items : Nat} {position last : Position State Element Event},
      reader.advance items position = some last →
      last.unread.length ≤ position.unread.length ∧
        position.events.length ≤ last.events.length := by
    intro items
    induction items with
    | zero =>
        intro position last advanced
        cases advanced
        exact ⟨Nat.le_refl _, Nat.le_refl _⟩
    | succ items induction =>
        intro position last advanced
        rw [advance] at advanced
        split at advanced
        · rcases induction advanced with ⟨shorter, longer⟩
          simp only [advanceOne, List.length_drop, List.length_append] at shorter longer
          exact ⟨by omega, by omega⟩
        · cases advanced
  rcases items with _ | items
  · omega
  · rw [advance] at advanced
    split at advanced
    · next count takes =>
        have within := reader.span_le takes
        rcases grows advanced with ⟨shorter, longer⟩
        simp only [advanceOne, List.length_drop, List.length_append] at shorter longer
        rcases reader.progress position.state takes with shorter' | event
        · left
          omega
        · have positive := List.length_pos_iff.mpr event
          right
          omega
    · cases advanced

/-- Two positions that look the same are equally many items away from a common start. -/
theorem advance_injective {start left right : Position State Element Event}
    {itemsLeft itemsRight : Nat} (ordered : itemsLeft ≤ itemsRight)
    (leftAdvanced : reader.advance itemsLeft start = some left)
    (rightAdvanced : reader.advance itemsRight start = some right)
    (sameEvents : left.events = right.events) (sameUnread : left.unread = right.unread) :
    itemsLeft = itemsRight := by
  by_contra different
  have sum : itemsRight = itemsLeft + (itemsRight - itemsLeft) := by omega
  rw [sum, reader.advance_add, leftAdvanced, Option.bind_some] at rightAdvanced
  rcases reader.advance_shows rightAdvanced (by omega) with shorter | longer
  · rw [sameUnread] at shorter
    omega
  · rw [sameEvents] at longer
    omega

/-- Two ways of cutting a stream agree exactly when equally many items were taken. -/
theorem feedAll_agree_iff (position : Position State Element Event)
    {left right : List (List Element)} (same : left.flatten = right.flatten) :
    (∃ lastLeft lastRight, reader.feedAll position left = some lastLeft ∧
        reader.feedAll position right = some lastRight ∧
        lastLeft.events = lastRight.events ∧ lastLeft.unread = lastRight.unread) ↔
      ∃ items, itemsTaken reader.span position.unread left = some items ∧
        itemsTaken reader.span position.unread right = some items := by
  constructor
  · rintro ⟨lastLeft, lastRight, runLeft, runRight, sameEvents, sameUnread⟩
    have someLeft := reader.feedAll_isSome position left
    have someRight := reader.feedAll_isSome position right
    rw [runLeft, Option.isSome_some] at someLeft
    rw [runRight, Option.isSome_some] at someRight
    rcases Option.isSome_iff_exists.mp someLeft.symm with ⟨itemsLeft, takenLeft⟩
    rcases Option.isSome_iff_exists.mp someRight.symm with ⟨itemsRight, takenRight⟩
    have advancedLeft := reader.advance_of_feedAll runLeft takenLeft
    have advancedRight := reader.advance_of_feedAll runRight takenRight
    rw [same] at advancedLeft
    have equal : itemsLeft = itemsRight := by
      rcases Nat.le_total itemsLeft itemsRight with ordered | ordered
      · exact reader.advance_injective ordered advancedLeft advancedRight sameEvents sameUnread
      · exact (reader.advance_injective ordered advancedRight advancedLeft sameEvents.symm
          sameUnread.symm).symm
    exact ⟨itemsLeft, takenLeft, equal ▸ takenRight⟩
  · rintro ⟨items, takenLeft, takenRight⟩
    have someLeft := reader.feedAll_isSome position left
    have someRight := reader.feedAll_isSome position right
    rw [takenLeft, Option.isSome_some] at someLeft
    rw [takenRight, Option.isSome_some] at someRight
    rcases Option.isSome_iff_exists.mp someLeft with ⟨lastLeft, runLeft⟩
    rcases Option.isSome_iff_exists.mp someRight with ⟨lastRight, runRight⟩
    have advancedLeft := reader.advance_of_feedAll runLeft takenLeft
    have advancedRight := reader.advance_of_feedAll runRight takenRight
    rw [same, advancedRight] at advancedLeft
    cases advancedLeft
    exact ⟨lastLeft, lastLeft, runLeft, runRight, rfl, rfl⟩

end Reader

end MyBookSources.Incremental
