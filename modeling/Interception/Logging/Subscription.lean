import Interception.Journal

/-! Which events are printed: those that the one filter of a process lets through. What filters are, how
they are read and what they let through is left to a library, which is a parameter. -/

namespace Interception.Logging

/-- A library for filters of events. -/
structure Filtering (φ : Type) where
  /-- Reads a filter, unless there is a mistake in it. -/
  read? : String → Option φ
  /-- Reads a filter and passes over mistakes. -/
  readLeniently : String → φ
  lets : φ → Event → Bool

variable {φ : Type}

/-- The filter for the value of the variable `WEFT_LOG`. If it is missing or cannot be read, events are
printed that report more than the course of things. -/
def filterFor (filtering : Filtering φ) (value : Option String) : φ :=
  (value.bind filtering.read?).getD (filtering.readLeniently "info")

/-- The place for the one filter of a process. -/
structure Subscription (φ : Type) where
  filter : Option φ := none

namespace Subscription

/-- Puts a filter into its place, unless there is one. Tells whether that was done. -/
def install (filter : φ) (s : Subscription φ) : Bool × Subscription φ :=
  match s.filter with
  | none => (true, ⟨some filter⟩)
  | some _ => (false, s)

/-- The events that are printed, each with its level and its message. -/
def printed (filtering : Filtering φ) (s : Subscription φ) (events : List Event) : List String :=
  match s.filter with
  | none => []
  | some filter => (events.filter (filtering.lets filter)).map fun e => e.level.describe ++ " " ++ e.message

end Subscription

end Interception.Logging
