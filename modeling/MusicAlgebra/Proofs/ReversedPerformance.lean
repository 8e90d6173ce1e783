import MusicAlgebra.Proofs.CutPerformance
import MusicAlgebra.Proofs.ReversedScores

/-!
# Performing a reversed score

A reversed score is heard as its performance run backwards.  Every event is mirrored about the
middle of the whole: it begins as long after the start as it ended before the end, and lasts as
long as before.  As with cuts this needs notes that sound as they are written, and no phrases.
-/

namespace MusicAlgebra

open Outcome Event

variable {players : Registry} {c : Context}

namespace Event

variable {start length start' length' t : Rat} {e : Event}
  {events events' others others' : List Event}

/-- The event of a passage, begun at `start` and `length` long, if the passage runs backwards. -/
def reversed (start length : Rat) (e : Event) : Event :=
  { e with onset := start + length - (e.onset - start) - e.duration }

/-- Events that are mirrored about the middle of one passage are those that are mirrored about the
middle of another one, later by twice as much as the other middle is. -/
theorem reversed_postponed (middle : start + start + length + t = start' + start' + length')
    (e : Event) : (e.reversed start length).postponed t = e.reversed start' length' := by
  have onset : start + length - (e.onset - start) - e.duration + t =
      start' + length' - (e.onset - start') - e.duration := by linarith only [middle]
  rw [postponed, reversed, reversed, ← onset]

/-- A whole passage is mirrored onto itself. -/
theorem reversed_whole (starts : e.onset = start) (lasts : e.duration = length) :
    e.reversed start length = e := by
  rw [reversed, starts, lasts, sub_self, sub_zero, add_sub_cancel_right, ← starts,
    ← lasts]

/-- The second passage has the events of the first one, reversed, in any order. -/
def Reverses (start length : Rat) (events others : List Event) : Prop :=
  others.Perm (events.map (reversed start length))

namespace Reverses

theorem reordered (reverses : Reverses start length events others) (same : events.Perm events')
    (same' : others.Perm others') : Reverses start length events' others' :=
  same'.symm.trans (reverses.trans (same.map _))

theorem sort (reverses : Reverses start length events others) :
    Reverses start length (Event.sort events) (Event.sort others) :=
  reverses.reordered (List.mergeSort_perm events noLater).symm
    (List.mergeSort_perm others noLater).symm

theorem append (first : Reverses start length events others)
    (second : Reverses start length events' others') :
    Reverses start length (events ++ events') (others ++ others') := by
  rw [Reverses, List.map_append]
  exact List.Perm.append first second

/-- The passage that came first comes last. -/
theorem exchanged (first : Reverses start length events others)
    (second : Reverses start length events' others') :
    Reverses start length (Event.sort (events ++ events')) (Event.sort (others' ++ others)) :=
  ((second.append first).reordered List.perm_append_comm (.refl _)).sort

theorem postponed (reverses : Reverses start length events others)
    (middle : start + start + length + t = start' + start' + length') :
    Reverses start' length' events (others.map (Event.postponed t)) := by
  have moved : events.map (reversed start' length') =
      (events.map (reversed start length)).map (Event.postponed t) := by
    rw [List.map_map]
    apply List.map_congr_left
    intro e _
    exact (reversed_postponed middle e).symm
  rw [Reverses, moved]
  exact List.Perm.map _ reverses

end Reverses

end Event

namespace Music

variable {start length start' length' t : Rat} {m : Music}
  {outcome : Except PerformFailure (List Event)}

theorem follows_later [Limits] (builtIn : players.BuiltIn)
    (follows : Follows (Reverses start length) outcome (m.performPairwise players c))
    (middle : start + start + length + t = start' + start' + length') :
    Follows (Reverses start' length') outcome
      (m.performPairwise players { c with startTime := c.startTime + t }) := by
  rw [performPairwise_later builtIn]
  exact follows.map_right fun _ _ reverses => reverses.postponed middle

/-- A reversed voice that enters later belongs to a passage that is longer by as much. -/
theorem follows_entering [Limits] (builtIn : players.BuiltIn) (silence : Amount)
    (follows : Follows (Reverses start length) outcome (m.performPairwise players c)) :
    Follows (Reverses start (length + silence.val / c.tempo)) outcome
      ((entering silence m).performPairwise players c) := by
  by_cases none : silence = 0
  · rw [none, entering_zero, Amount.val_zero, zero_div, add_zero]
    exact follows
  · have later := follows_later builtIn follows (t := silence.val / c.tempo)
      (add_assoc (start + start) length _)
    have read : (delayed silence m).performPairwise players c = (do
        let events ← m.performPairwise players
          { c with startTime := c.startTime + silence.val / c.tempo }
        return Event.sort events) := by
      rw [delayed, performPairwise, performPairwise, duration_rest]
      rfl
    rw [entering, if_neg none, read, bind_pure_comp]
    exact later.map_right fun _ others reverses =>
      reverses.reordered (.refl _) (List.mergeSort_perm others noLater).symm

/-- The reading of a reversed score is the reading of the score reversed, by induction over the tree
and under every context that is met in it. -/
theorem follows_retrograde [Limits] (literal : players.Literal) (unphrased : m.Unphrased)
    (moving : 0 < c.tempo) :
    Follows (Reverses c.startTime (m.duration.val / c.tempo)) (m.performPairwise players c)
      (m.retrograde.performPairwise players c) := by
  induction m generalizing c with
  | note n =>
      intro passage read
      obtain ⟨e, starts, sounds⟩ := exists_sounded literal moving read
      cases read.symm.trans (sounds n.length)
      have whole := reversed_whole (e := { e with duration := n.length.val / c.tempo }) starts rfl
      refine ⟨_, read, ?_⟩
      rw [Reverses, List.map_singleton, duration_note, whole]
  | rest length => exact .succeeded (.refl _)
  | sequential left right leftIH rightIH =>
      rw [unphrased_sequential] at unphrased
      have whole : (sequential left right).duration.val / c.tempo =
          left.duration.val / c.tempo + right.duration.val / c.tempo := by
        rw [duration_sequential, Amount.val_add, add_div]
      have former := follows_later literal.builtIn (leftIH unphrased.1 moving)
        (add_assoc (c.startTime + c.startTime) _ (right.duration.val / c.tempo))
      -- The second passage is read at its entry, and reversed at the start of the whole.
      have middle : ∀ start own other : Rat,
          start + own + (start + own) + other + -own = start + start + (own + other) := by
        intro start own other
        ring
      have entered := rightIH unphrased.2 (c := { c with
        startTime := c.startTime + left.duration.val / c.tempo }) moving
      have latter := follows_later literal.builtIn entered (middle _ _ _)
      dsimp only at latter
      rw [add_neg_cancel_right] at latter
      rw [whole, retrograde, performPairwise, performPairwise, duration_retrograde]
      exact former.pair_swapped latter fun reversed reversed' => reversed.exchanged reversed'
  | parallel left right leftIH rightIH =>
      rw [unphrased_parallel] at unphrased
      have padded : ∀ own other : Amount, own.val / c.tempo + (other - own).val / c.tempo =
          (max own other).val / c.tempo := by
        intro own other
        rw [← add_div, ← Amount.val_add, Amount.add_comm, Amount.sub_add_eq_max]
      have former := follows_entering literal.builtIn (right.duration - left.duration)
        (leftIH unphrased.1 moving)
      have latter := follows_entering literal.builtIn (left.duration - right.duration)
        (rightIH unphrased.2 moving)
      rw [padded] at former latter
      rw [Amount.max_comm] at latter
      rw [retrograde_parallel, duration_parallel, performPairwise, performPairwise]
      exact former.pair latter fun reversed reversed' => (reversed.append reversed').sort
  | modified modifier inner ih =>
      obtain ⟨plain, unphrased⟩ := unphrased_modified.1 unphrased
      rw [retrograde, performPairwise_modified players inner c plain,
        performPairwise_modified players _ c plain, duration_modified]
      cases derived : c.under players modifier with
      | error failure => exact .failed failure
      | ok inside =>
          rw [Context.outward_div_tempo derived, ← Context.under_startTime derived]
          exact ih unphrased (Context.under_tempo_pos derived moving)

end Music

/-- The performance `p`, begun at `start`, run backwards. -/
structure Performance.Reversal (start : Rat) (p q : Performance) : Prop where
  events : Reverses start p.duration p.events q.events
  order : InOrder q.events
  duration : q.duration = p.duration

namespace Music

open Performance

/-- A reversed score lasts as long as the score, and without phrases and under players that sound
notes as they are written it is performed as the performance of the score run backwards: every event
is mirrored about the middle of the whole, and nothing else is changed.  The reversed events stand
in order of their own onsets. -/
theorem perform_retrograde [Limits] (players : Registry) (m : Music) :
    m.retrograde.duration = m.duration ∧
      (players.Literal → m.Unphrased → ∀ c : Context, 0 < c.tempo →
        (∀ p, m.perform players c = .ok p →
          ∃ q, m.retrograde.perform players c = .ok q ∧ p.Reversal c.startTime q) ∧
        ∀ p, (Operand.music m).perform players c = .ok p →
          ∃ q, (Operand.music m.retrograde).perform players c = .ok q ∧
            p.Reversal c.startTime q) := by
  refine ⟨duration_retrograde m, ?_⟩
  intro literal unphrased c moving
  have ordered := literal.builtIn.playsInOrder
  have mirrored : ∀ p, m.perform players c = .ok p →
      ∃ q, m.retrograde.perform players c = .ok q ∧ p.Reversal c.startTime q := by
    intro p performed
    obtain ⟨read, lasted⟩ := (perform_eq_ok_iff ordered moving).1 performed
    obtain ⟨events, reversedRead, reverses⟩ :=
      follows_retrograde literal unphrased moving p.events read
    rw [← lasted] at reverses
    refine ⟨⟨events, p.duration⟩, (perform_eq_ok_iff ordered moving).2 ⟨reversedRead, ?_⟩,
      reverses, inOrder_of_performPairwise ordered reversedRead, rfl⟩
    rw [lasted, duration_retrograde]
  refine ⟨mirrored, ?_⟩
  intro p granted
  obtain ⟨performed, written⟩ := (operand_perform_eq_ok moving).1 granted
  obtain ⟨q, played, reversal⟩ := mirrored p performed
  rw [← duration_retrograde m] at written
  exact ⟨q, (operand_perform_eq_ok moving).2 ⟨played, written⟩, reversal⟩

open Usual

/-- The second voice ends by a fortieth earlier than the first one, and enters by that later if the
score is reversed. -/
theorem overlappingVoices_reversed :
    literalPlayers.Literal ∧ overlappingVoices.Unphrased ∧ 0 < ({} : Context).tempo ∧
      ∃ p q, overlappingVoices.perform literalPlayers {} = .ok p ∧
        overlappingVoices.retrograde.perform literalPlayers {} = .ok q ∧ p.Reversal 0 q := by
  have moving : 0 < ({} : Context).tempo := by decide +kernel
  obtain ⟨p, performed⟩ := exists_of_isOk (show
    (overlappingVoices.perform literalPlayers {}).isOk = true by decide +kernel)
  have mirrored := ((perform_retrograde literalPlayers overlappingVoices).2 literalPlayers_literal
    overlappingVoices_unphrased {} moving).1
  obtain ⟨q, reversed, reversal⟩ := mirrored p performed
  exact ⟨literalPlayers_literal, overlappingVoices_unphrased, moving, p, q, performed, reversed,
    reversal⟩

end Music

end MusicAlgebra
