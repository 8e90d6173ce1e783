import MusicAlgebra.Proofs.EventOrder
import MusicAlgebra.Proofs.PerformedDuration

/-!
# Performing pair by pair

The interpreter flattens a chain of any length, keeps a running time and merges the streams of all
its operands at once.  Since merging is associative and the lengths of operands are known, the same
comes out if every composition is performed as the tree shows it: two operands, the second one
entering when the first one ends or together with it, and their events merged.  This holds for
arbitrary players under a positive tempo.
-/

namespace MusicAlgebra.Music

open Outcome Performance

variable {players : Registry} {c : Context}

/-- A performance is its events and the length of its score. -/
theorem perform_with_duration [Limits] (players : Registry) (m : Music) (moving : 0 < c.tempo) :
    (do
      let passage ← events <$> m.perform players c
      return { events := passage, duration := m.duration.val / c.tempo }) =
      m.perform players c := by
  cases performed : m.perform players c with
  | error failure => rfl
  | ok p =>
      rw [map_ok, ok_bind, ← duration_of_perform moving performed]
      rfl

theorem events_rest [Limits] (players : Registry) (length : Amount) (moving : 0 < c.tempo) :
    events <$> (rest length).perform players c = .ok [] := by
  rw [perform_rest, Context.scale_of_pos moving]
  rfl

/-- The events of any music are those of its sequential operands merged. -/
theorem events_of_entries [Limits] (players : Registry) (m : Music) (moving : 0 < c.tempo) :
    events <$> m.perform players c =
      Event.merge <$> (entries c.tempo c.startTime (flatten .sequential m)).mapM fun entry =>
        events <$> entry.1.perform players { c with startTime := entry.2 } := by
  cases m with
  | sequential left right =>
      rw [perform_sequential_entries players left right moving, bind_pure_comp, Functor.map_map]
  | _ =>
      rw [flatten_of_none rfl, entries, entries, List.mapM_cons, List.mapM_nil]
      simp

theorem events_of_parts [Limits] (players : Registry) (m : Music) (moving : 0 < c.tempo) :
    events <$> m.perform players c =
      Event.merge <$> (flatten .parallel m).mapM fun part => events <$> part.perform players c := by
  cases m with
  | parallel left right =>
      rw [perform_parallel_parts players left right moving, bind_pure_comp, Functor.map_map]
  | _ =>
      rw [flatten_of_none rfl, List.mapM_cons, List.mapM_nil]
      simp

theorem perform_sequential_pair [Limits] (players : Registry) (left right : Music)
    (moving : 0 < c.tempo) :
    (sequential left right).perform players c = (do
      let first ← events <$> left.perform players c
      let second ← events <$>
        right.perform players { c with startTime := c.startTime + left.duration.val / c.tempo }
      return {
        events := first.merge second Event.noLater
        duration := (sequential left right).duration.val / c.tempo }) := by
  have later := events_of_entries (c := { c with
    startTime := c.startTime + left.duration.val / c.tempo }) players right moving
  rw [perform_sequential_entries players left right moving, flatten_sequential, entries_append,
    sum_duration_flatten, List.mapM_append, events_of_entries players left moving, later]
  simp only [bind_assoc, pure_bind, bind_map_left, Event.merge_append]

theorem perform_parallel_pair [Limits] (players : Registry) (left right : Music)
    (moving : 0 < c.tempo) :
    (parallel left right).perform players c = (do
      let first ← events <$> left.perform players c
      let second ← events <$> right.perform players c
      return {
        events := first.merge second Event.noLater
        duration := (parallel left right).duration.val / c.tempo }) := by
  rw [perform_parallel_parts players left right moving, flatten_parallel, List.mapM_append,
    events_of_parts players left moving, events_of_parts players right moving]
  simp only [bind_assoc, pure_bind, bind_map_left, Event.merge_append]

end MusicAlgebra.Music
