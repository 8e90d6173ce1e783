import MusicAlgebra.Proofs.PerformedPairs

/-!
# Comparing two performances

Two interpretations are compared stream by stream of events: whatever the relation between streams
is, it must be kept when passages are joined and when the events of a phrase are brought into order.
Where players, contexts or scores differ, it is then enough to compare single notes, and phrases
under a single attribute.
-/

namespace MusicAlgebra

open Outcome

/-- A relation between streams of events that merging and sorting keep. -/
structure Comparison where
  related : List Event → List Event → Prop
  merge : ∀ {first first' second second'}, related first first' → related second second' →
    related (first.merge second Event.noLater) (first'.merge second' Event.noLater)
  sort : ∀ {events events'}, related events events' →
    related (Event.sort events) (Event.sort events')

namespace Comparison

/-- Performances of related events that last equally long. -/
structure Likened (comparison : Comparison) (p q : Performance) : Prop where
  events : comparison.related p.events q.events
  duration : p.duration = q.duration

variable {comparison : Comparison} {failures : PerformFailure → PerformFailure → Prop}

/-- Two passages joined, in sequence or in parallel. -/
theorem joined {left left' right right' : Except PerformFailure Performance}
    (first : Agree failures comparison.Likened left left')
    (second : Agree failures comparison.Likened right right') (duration : Rat) :
    Agree failures comparison.Likened
      (do
        let first ← Performance.events <$> left
        let second ← Performance.events <$> right
        return { events := first.merge second Event.noLater, duration })
      (do
        let first ← Performance.events <$> left'
        let second ← Performance.events <$> right'
        return { events := first.merge second Event.noLater, duration }) := by
  have firstEvents := first.map fun p q alike => alike.events
  have secondEvents := second.map fun p q alike => alike.events
  apply firstEvents.bind
  intro events events' firstAlike
  apply secondEvents.bind
  intro others others' secondAlike
  exact .succeeded ⟨comparison.merge firstAlike secondAlike, rfl⟩

/-- All attributes of a phrase together. -/
theorem shaped [Limits] {player player' : Player} {c c' : Context} {attributes : List Attribute}
    (steps : ∀ shaping ∈ attributes, ∀ p q, comparison.Likened p q →
      Agree failures comparison.Likened (p.shape player c shaping) (q.shape player' c' shaping))
    {p q : Performance} (alike : comparison.Likened p q) :
    Agree failures comparison.Likened (p.shapeAll player c attributes)
      (q.shapeAll player' c' attributes) := by
  apply (Agree.foldlM steps alike).bind
  intro shaped shaped' both
  exact .succeeded ⟨comparison.sort both.events, both.duration⟩

/-- The public entry looks at the duration alone. -/
theorem granted [Limits] (failed : ∀ failure, failures failure failure) {p q : Performance}
    (alike : comparison.Likened p q) : Agree failures comparison.Likened p.granted q.granted := by
  rw [Performance.granted, Performance.granted, alike.duration]
  split
  · exact .succeeded alike
  · exact .failed (failed _)

end Comparison

end MusicAlgebra
