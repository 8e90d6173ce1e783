import MusicAlgebra.Proofs.EventMaps
import MusicAlgebra.Proofs.PairwiseReading
import MusicAlgebra.Proofs.ScoreContents

/-!
# Symmetries of performing

Some changes of a context are heard as one and the same change of every event: a later start, another
tempo, another transposition.  Whether a change is of this kind can be told node by node: what it
does to a note, to the context of a modified passage and to a phrase under a single attribute.  This
module lists these conditions and concludes from them, by one induction over the score, that
performing in the changed context is performing and changing the result, failures included.
-/

namespace MusicAlgebra

open Outcome

variable {players : Registry} {admits : Attribute → Prop}

/-- A change of contexts that is heard as a change of events, wherever the phrases of a score have no
attributes but those that are admitted. -/
structure Symmetry [Limits] (players : Registry) (admits : Attribute → Prop) where
  context : Context → Context
  event : Event → Event
  length : Rat → Rat
  noLater_event : ∀ first second, (event first).noLater (event second) = first.noLater second
  context_player : ∀ c, (context c).player = c.player
  div_context_tempo : ∀ c written, written / (context c).tempo = length (written / c.tempo)
  context_later : ∀ c written,
    { context c with startTime := (context c).startTime + written / (context c).tempo } =
      context { c with startTime := c.startTime + written / c.tempo }
  under_context : ∀ c modifier,
    (context c).under players modifier = context <$> c.under players modifier
  withLoudness_context : ∀ c attributes,
    (context c).withLoudness attributes = context (c.withLoudness attributes)
  playNote_context : ∀ style n c,
    Style.playNote style n (context c) = event <$> Style.playNote style n c
  shape_context : ∀ style c shaping p, admits shaping →
    Performance.shape (.builtIn style) (context c) ⟨p.events.map event, length p.duration⟩ shaping =
      (fun q => ⟨q.events.map event, length q.duration⟩) <$>
        Performance.shape (.builtIn style) c p shaping

namespace Symmetry

variable [Limits] (symmetry : Symmetry players admits) {m : Music} {c : Context}

def performance (p : Performance) : Performance :=
  ⟨p.events.map symmetry.event, symmetry.length p.duration⟩

theorem sort_map_event (events : List Event) :
    Event.sort (events.map symmetry.event) = (Event.sort events).map symmetry.event :=
  Event.sort_map symmetry.noLater_event events

/-- All attributes of a phrase together, by induction along them. -/
theorem shapeAll_performance (style : Style) (c : Context) {attributes : List Attribute}
    (admitted : ∀ shaping ∈ attributes, admits shaping) (p : Performance) :
    (symmetry.performance p).shapeAll (.builtIn style) (symmetry.context c) attributes =
      symmetry.performance <$> p.shapeAll (.builtIn style) c attributes := by
  have run : attributes.foldlM (Performance.shape (.builtIn style) (symmetry.context c))
        (symmetry.performance p) =
      symmetry.performance <$> attributes.foldlM (Performance.shape (.builtIn style) c) p := by
    apply foldlM_map_of_step
    intro before shaping member
    exact symmetry.shape_context style c shaping before (admitted shaping member)
  rw [Performance.shapeAll, Performance.shapeAll, run]
  cases attributes.foldlM (Performance.shape (.builtIn style) c) p with
  | error failure => rfl
  | ok shaped =>
      apply congrArg Except.ok
      simp only [performance, sort_map_event]

/-- Two passages that are changed and joined are the joined passages changed. -/
theorem joining_event (left right : Except PerformFailure (List Event)) :
    (do
      let first ← List.map symmetry.event <$> left
      let second ← List.map symmetry.event <$> right
      return Event.sort (first ++ second)) =
      List.map symmetry.event <$> (do
        let first ← left
        let second ← right
        return Event.sort (first ++ second)) := by
  cases left with
  | error failure => rfl
  | ok first =>
      cases right with
      | error failure => rfl
      | ok second =>
          simp only [map_ok, ok_bind, ← List.map_append, sort_map_event]
          rfl

/-- A passage that is changed and shaped by a phrase is the shaped passage changed. -/
theorem shaping_event (builtIn : players.BuiltIn) {attributes : List Attribute}
    (admitted : ∀ shaping ∈ attributes, admits shaping) (c : Context)
    (passage : Except PerformFailure (List Event)) (duration : Rat) :
    (do
      let events ← List.map symmetry.event <$> passage
      let player ← players.resolve c.player
      Performance.events <$> Performance.shapeAll player (symmetry.context c) attributes
        ⟨events, symmetry.length duration⟩) =
      List.map symmetry.event <$> (do
        let events ← passage
        let player ← players.resolve c.player
        Performance.events <$> Performance.shapeAll player c attributes ⟨events, duration⟩) := by
  cases passage with
  | error failure => rfl
  | ok events =>
      cases resolved : players.resolve c.player with
      | error failure => rfl
      | ok player =>
          obtain ⟨style, rfl⟩ := builtIn c.player player resolved
          have shaped := symmetry.shapeAll_performance style c admitted ⟨events, duration⟩
          rw [performance] at shaped
          simp only [map_ok, ok_bind, shaped]
          cases Performance.shapeAll (.builtIn style) c attributes ⟨events, duration⟩ <;> rfl

theorem performPairwise_context (builtIn : players.BuiltIn)
    (admitted : ∀ shaping ∈ m.attributes, admits shaping) (c : Context) :
    m.performPairwise players (symmetry.context c) =
      List.map symmetry.event <$> m.performPairwise players c := by
  induction m generalizing c with
  | note n =>
      simp only [Music.performPairwise, symmetry.context_player]
      cases resolved : players.resolve c.player with
      | error failure => rfl
      | ok player =>
          obtain ⟨style, rfl⟩ := builtIn c.player player resolved
          simp only [ok_bind, Player.playNote, symmetry.playNote_context]
          cases style.playNote n c <;> rfl
  | rest length => rfl
  | sequential left right leftIH rightIH =>
      rw [Music.attributes_sequential, List.forall_mem_append] at admitted
      simp only [Music.performPairwise, symmetry.context_later, leftIH admitted.1,
        rightIH admitted.2]
      exact symmetry.joining_event _ _
  | parallel left right leftIH rightIH =>
      rw [Music.attributes_parallel, List.forall_mem_append] at admitted
      simp only [Music.performPairwise, leftIH admitted.1, rightIH admitted.2]
      exact symmetry.joining_event _ _
  | modified modifier inner ih =>
      rw [Music.attributes_modified, List.forall_mem_append] at admitted
      by_cases phrased : ∃ attributes, modifier = .phrase attributes
      · -- A phrase shapes its passage in the context that its loudness derives.
        obtain ⟨attributes, rfl⟩ := phrased
        simp only [Music.performPairwise, symmetry.withLoudness_context, ih admitted.2,
          symmetry.div_context_tempo, symmetry.context_player]
        exact symmetry.shaping_event builtIn admitted.1 _ _ _
      · have plain := not_exists.1 phrased
        rw [Music.performPairwise_modified players inner _ plain,
          Music.performPairwise_modified players inner _ plain, symmetry.under_context]
        cases c.under players modifier with
        | error failure => rfl
        | ok inside => exact ih admitted.2 inside

/-- Performing commutes with every symmetry, failures included. -/
theorem perform_context (builtIn : players.BuiltIn)
    (admitted : ∀ shaping ∈ m.attributes, admits shaping) (moving : 0 < c.tempo)
    (stillMoving : 0 < (symmetry.context c).tempo) :
    m.perform players (symmetry.context c) = symmetry.performance <$> m.perform players c := by
  have ordered := builtIn.playsInOrder
  rw [Music.perform_eq_pairwise ordered m stillMoving, Music.perform_eq_pairwise ordered m moving,
    symmetry.performPairwise_context builtIn admitted, symmetry.div_context_tempo]
  cases m.performPairwise players c <;> rfl

end Symmetry

end MusicAlgebra
