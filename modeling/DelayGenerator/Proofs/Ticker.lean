/-
This file shows who stays subscribed to a ticker, and that its listeners stay in the order of their
numbers.
-/

import DelayGenerator.Ticker
import Mathlib.Data.List.Nodup
import Mathlib.Data.List.Pairwise

namespace DelayGenerator.Ticker

theorem mem_without {name : String} {listeners : List Listener} {listener : Listener} :
    listener ∈ without name listeners ↔ listener ∈ listeners ∧ listener.name ≠ name := by
  simp [without]

theorem without_sublist (name : String) (listeners : List Listener) :
    (without name listeners).Sublist listeners := List.filter_sublist

theorem mem_react {count : Nat} {listeners : List Listener} {reactor listener : Listener} :
    listener ∈ react count listeners reactor ↔
      listener ∈ listeners ∧ reactor.drops ≠ some (count, listener.name) := by
  unfold react
  split
  next atCount name drops =>
    rw [drops]
    split
    next same =>
      rw [mem_without, beq_iff_eq.mp same]
      simp [eq_comm]
    next other => simp_all
  next drops => simp [drops]

theorem react_sublist (count : Nat) (listeners : List Listener) (reactor : Listener) :
    (react count listeners reactor).Sublist listeners := by
  unfold react
  split
  · split
    · exact without_sublist _ _
    · exact .refl _
  · exact .refl _

/-- A listener stays when none of those that hear the tick drops its name. -/
theorem mem_foldl_react {count : Nat} {reactors listeners : List Listener} {listener : Listener} :
    listener ∈ reactors.foldl (react count) listeners ↔
      listener ∈ listeners ∧ ∀ reactor ∈ reactors, reactor.drops ≠ some (count, listener.name) := by
  induction reactors generalizing listeners with
  | nil => simp
  | cons reactor others inductionHypothesis =>
      rw [List.foldl_cons, inductionHypothesis, mem_react, List.forall_mem_cons, and_assoc]

theorem foldl_react_sublist (count : Nat) (reactors listeners : List Listener) :
    (reactors.foldl (react count) listeners).Sublist listeners := by
  induction reactors generalizing listeners with
  | nil => exact .refl _
  | cons reactor others inductionHypothesis =>
      exact (inductionHypothesis _).trans (react_sublist count listeners reactor)

/-- The listeners have different names and stand in the order of their numbers, all of which have
been given out. -/
structure IsOrdered (ticker : Ticker) : Prop where
  numbers : ticker.listeners.Pairwise fun first second => first.id < second.id
  given : ∀ listener ∈ ticker.listeners, listener.id < ticker.nextId
  names : (ticker.listeners.map Listener.name).Nodup

namespace IsOrdered

variable {ticker : Ticker}

theorem start (period now : Nat) : (Ticker.start period now).IsOrdered :=
  ⟨.nil, fun _ member => by contradiction, .nil⟩

/-- Listeners may leave. -/
theorem sublist (ordered : ticker.IsOrdered) {after : Ticker} (number : after.nextId = ticker.nextId)
    (fewer : after.listeners.Sublist ticker.listeners) : after.IsOrdered where
  numbers := ordered.numbers.sublist fewer
  given listener member := number ▸ ordered.given listener (fewer.subset member)
  names := ordered.names.sublist (fewer.map _)

theorem unsubscribe (ordered : ticker.IsOrdered) (name : String) :
    (ticker.unsubscribe name).IsOrdered := ordered.sublist rfl (without_sublist _ _)

theorem fire (ordered : ticker.IsOrdered) : ticker.fire.IsOrdered :=
  ordered.sublist rfl (foldl_react_sublist _ _ _)

theorem stop (ordered : ticker.IsOrdered) : ticker.stop.IsOrdered := ordered.sublist rfl (.refl _)

/-- A new listener takes the next number, and no other listener keeps its name. -/
theorem subscribe (ordered : ticker.IsOrdered) (name : String) (drops : Option (Nat × String)) :
    (ticker.subscribe name drops).IsOrdered := by
  have left := without_sublist name ticker.listeners
  refine ⟨?_, ?_, ?_⟩
  · refine List.pairwise_append.mpr ⟨ordered.numbers.sublist left, List.pairwise_singleton _ _, ?_⟩
    intro first member second last
    rw [List.mem_singleton.mp last]
    exact ordered.given first (left.subset member)
  · intro listener member
    rcases List.mem_append.mp member with old | new
    · exact Nat.lt_succ_of_lt (ordered.given listener (left.subset old))
    · rw [List.mem_singleton.mp new]
      exact Nat.lt_succ_self _
  · rw [Ticker.subscribe, List.map_append, List.nodup_append]
    refine ⟨ordered.names.sublist (left.map _), List.nodup_singleton _, ?_⟩
    intro old member new last
    obtain ⟨listener, stays, rfl⟩ := List.mem_map.mp member
    rw [List.mem_singleton.mp last]
    exact (mem_without.mp stays).2

end IsOrdered

end DelayGenerator.Ticker
