import MusicAlgebra.Proofs.InstantEvents
import MusicAlgebra.Proofs.PairwiseReading
import MusicAlgebra.Proofs.PlayablePerformance
import MusicAlgebra.Proofs.ZeroFree

/-!
# Removed zeros

Notes and rests of no length may be removed from the compositions of a score, and the compositions
with them.  The score lasts as long as before, and what is performed is the same but for some
instants.  The score is followed as its tree shows it: removing a leaf from one composition leaves
out instants of one passage, and no phrase around it tells the difference.
-/

namespace MusicAlgebra.Music

open Outcome Performance

variable {players : Registry} {c : Context}

/-! ## Compositions -/

/-- The context in which the second operand of a composition enters. -/
def entry (kind : Composition) (left : Music) (c : Context) : Context :=
  match kind with
  | .sequential => { c with startTime := c.startTime + left.duration.val / c.tempo }
  | .parallel => c

theorem entry_tempo (kind : Composition) (left : Music) (c : Context) :
    (entry kind left c).tempo = c.tempo := by
  cases kind <;> rfl

theorem entry_of_duration_eq {kind : Composition} {left other : Music}
    (same : left.duration = other.duration) : entry kind left c = entry kind other c := by
  cases kind with
  | sequential => rw [entry, entry, same]
  | parallel => rfl

/-- Nothing passes before the second operand enters. -/
theorem entry_of_isZero {kind : Composition} {left : Music} (zero : left.isZero = true) :
    entry kind left c = c := by
  cases kind with
  | sequential =>
      rw [entry, duration_of_isZero zero, Amount.val_zero, zero_div, add_zero]
  | parallel => rfl

theorem performPairwise_compose [Limits] (kind : Composition) (left right : Music) (c : Context) :
    (compose kind left right).performPairwise players c = (do
      let first ← left.performPairwise players c
      let second ← right.performPairwise players (entry kind left c)
      return Event.sort (first ++ second)) := by
  cases kind <;> rfl

theorem instants_of_isZero [Limits] (builtIn : players.BuiltIn) (moving : 0 < c.tempo) {m : Music}
    (zero : m.isZero = true) {passage : List Event}
    (read : m.performPairwise players c = .ok passage) : ∀ e ∈ passage, e.duration = 0 := by
  cases m with
  | note n =>
      have nothing : n.length = 0 := LawfulBEq.eq_of_beq zero
      obtain ⟨player, resolved, read⟩ := bind_eq_ok.1 read
      obtain ⟨style, rfl⟩ := builtIn _ player resolved
      obtain ⟨e, played, rfl⟩ := map_eq_ok.1 read
      obtain ⟨written, denoted, sounded⟩ := bind_eq_ok.1 played
      rw [Context.literalEvent, Context.scale_of_pos moving, ok_bind] at denoted
      obtain ⟨volume, -, denoted⟩ := bind_eq_ok.1 denoted
      cases denoted
      cases sounded
      intro e member
      rw [List.mem_singleton.1 member, nothing]
      simp
  | rest length =>
      cases read
      simp
  | _ => cases zero

/-- A leaf of no length is not missed in a composition. -/
theorem follows_joinNonzero [Limits] (builtIn : players.BuiltIn) (moving : 0 < c.tempo)
    (kind : Composition) (left right : Music) :
    Follows Event.Pruned ((compose kind left right).performPairwise players c)
      ((joinNonzero (compose kind) left right).performPairwise players c) := by
  have ordered := builtIn.playsInOrder
  rw [joinNonzero]
  split
  · rename_i zero
    intro passage read
    rw [performPairwise_compose, entry_of_isZero zero] at read
    obtain ⟨first, firstRead, read⟩ := bind_eq_ok.1 read
    obtain ⟨second, secondRead, read⟩ := bind_eq_ok.1 read
    cases read
    exact ⟨second, secondRead, .of_left (instants_of_isZero builtIn moving zero firstRead)
      (inOrder_of_performPairwise ordered secondRead)⟩
  · split
    · rename_i zero
      intro passage read
      rw [performPairwise_compose] at read
      obtain ⟨first, firstRead, read⟩ := bind_eq_ok.1 read
      obtain ⟨second, secondRead, read⟩ := bind_eq_ok.1 read
      cases read
      have movingThere : 0 < (entry kind left c).tempo := by rwa [entry_tempo]
      exact ⟨first, firstRead, .of_right (instants_of_isZero builtIn movingThere zero secondRead)
        (inOrder_of_performPairwise ordered firstRead)⟩
    · exact .refl Event.Pruned.refl _

/-- The operands of a composition are thinned out first, and then the composition itself. -/
theorem follows_compose [Limits] (builtIn : players.BuiltIn) (moving : 0 < c.tempo)
    (kind : Composition)
    {left right : Music}
    (first : Follows Event.Pruned (left.performPairwise players c)
      (left.removeZeros.performPairwise players c))
    (second : Follows Event.Pruned (right.performPairwise players (entry kind left c))
      (right.removeZeros.performPairwise players (entry kind left c))) :
    Follows Event.Pruned ((compose kind left right).performPairwise players c)
      ((compose kind left right).removeZeros.performPairwise players c) := by
  have operands : Follows Event.Pruned ((compose kind left right).performPairwise players c)
      ((compose kind left.removeZeros right.removeZeros).performPairwise players c) := by
    rw [performPairwise_compose, performPairwise_compose,
      entry_of_duration_eq (duration_removeZeros left)]
    exact first.pair second fun firstPruned secondPruned => (firstPruned.append secondPruned).sort
  rw [removeZeros_compose]
  exact operands.trans (fun both more => both.trans more)
    (follows_joinNonzero builtIn moving kind left.removeZeros right.removeZeros)

/-! ## Scores -/

/-- Whatever can be read of a score can be read of the score without its zeros, by induction over
its tree. -/
theorem follows_removeZeros [Limits] (builtIn : players.BuiltIn) {m : Music}
    (free : ∀ shaping ∈ m.attributes, shaping.binds = false) (moving : 0 < c.tempo) :
    Follows Event.Pruned (m.performPairwise players c)
      (m.removeZeros.performPairwise players c) := by
  induction m generalizing c with
  | note n | rest length => exact .refl Event.Pruned.refl _
  | sequential left right leftIH rightIH =>
      rw [attributes_sequential, List.forall_mem_append] at free
      have first := leftIH free.1 moving
      have second := rightIH free.2 (c := entry .sequential left c) moving
      exact follows_compose builtIn moving .sequential first second
  | parallel left right leftIH rightIH =>
      rw [attributes_parallel, List.forall_mem_append] at free
      have first := leftIH free.1 moving
      have second := rightIH free.2 moving
      exact follows_compose builtIn moving .parallel first second
  | modified modifier inner ih =>
      rw [attributes_modified, List.forall_mem_append] at free
      rw [removeZeros]
      by_cases phrased : ∃ attributes, modifier = .phrase attributes
      · obtain ⟨attributes, rfl⟩ := phrased
        have insideMoving : 0 < (c.withLoudness attributes).tempo := by
          rwa [Context.withLoudness_tempo]
        rw [performPairwise, performPairwise, duration_removeZeros]
        apply (ih free.2 insideMoving).bind
        intro passage others pruned
        cases resolved : players.resolve (c.withLoudness attributes).player with
        | error failure => exact .failed failure
        | ok player =>
            obtain ⟨style, rfl⟩ := builtIn _ player resolved
            exact (follows_shapeAll style (p := ⟨passage, _⟩) (q := ⟨others, _⟩) ⟨pruned, rfl⟩
              free.1).map fun _ _ both => both.events
      · have plain := not_exists.1 phrased
        rw [performPairwise_modified players _ c plain, performPairwise_modified players _ c plain]
        cases derived : c.under players modifier with
        | error failure => exact .failed failure
        | ok inside => exact ih free.2 (Context.under_tempo_pos derived moving)

/-- Removing zeros cannot be heard.  Every score lasts as long without its zeros as with them; where
no slur and no pedal ties events to the last ones of their phrase, it is performed without them if
it is performed with them, and the events that last are the same, in the same order. -/
theorem perform_removeZeros [Limits] (players : Registry) (m : Music) :
    m.removeZeros.duration = m.duration ∧
      (players.BuiltIn → (∀ shaping ∈ m.attributes, shaping.binds = false) →
        ∀ c : Context, 0 < c.tempo →
          (∀ p, m.perform players c = .ok p →
            ∃ q, m.removeZeros.perform players c = .ok q ∧ q.duration = p.duration ∧
              Event.lasting q.events = Event.lasting p.events) ∧
          ∀ p, (Operand.music m).perform players c = .ok p →
            ∃ q, (Operand.music m.removeZeros).perform players c = .ok q ∧
              q.duration = p.duration ∧ Event.lasting q.events = Event.lasting p.events) := by
  refine ⟨duration_removeZeros m, ?_⟩
  intro builtIn free c moving
  have ordered := builtIn.playsInOrder
  have thinned : ∀ p, m.perform players c = .ok p →
      ∃ q, m.removeZeros.perform players c = .ok q ∧ q.duration = p.duration ∧
        Event.lasting q.events = Event.lasting p.events := by
    intro p performed
    obtain ⟨read, lasted⟩ := (perform_eq_ok_iff ordered moving).1 performed
    obtain ⟨events, othersRead, pruned⟩ := follows_removeZeros builtIn free moving p.events read
    refine ⟨⟨events, p.duration⟩, (perform_eq_ok_iff ordered moving).2 ⟨othersRead, ?_⟩, rfl, ?_⟩
    · rw [lasted, duration_removeZeros]
    · exact pruned.lasting.symm
  refine ⟨thinned, ?_⟩
  intro p granted
  obtain ⟨performed, written⟩ := (operand_perform_eq_ok moving).1 granted
  obtain ⟨q, played, lasted, same⟩ := thinned p performed
  rw [← duration_removeZeros m] at written
  exact ⟨q, (operand_perform_eq_ok moving).2 ⟨played, written⟩, lasted, same⟩

/-- A note of the middle octave without length. -/
def ghost (letter : Letter) : Music :=
  note ⟨⟨⟨letter, .natural⟩, 4, natural_inRange letter⟩, 0, .ofNote⟩

theorem isZero_ghost (letter : Letter) : (ghost letter).isZero = true := rfl

theorem isZero_quarter (letter : Letter) : (quarter letter).isZero = false := by
  have long : ((.nearest (1 / 4) : Amount) == 0) = false := by decide +kernel
  exact long

/-- A phrase with mordents that is rolled and slows down. -/
def rolledMordents : Music → Music :=
  modified (.phrase [.mordent, .arpeggioUp, .ritardando (.nearest (1 / 3))])

/-- Two notes among ghosts. -/
def hauntedChord : Music :=
  rolledMordents (sequential (ghost .d) (parallel (quarter .e) (parallel (ghost .f) (quarter .g))))

theorem hauntedChord_without_zeros :
    hauntedChord.removeZeros = rolledMordents (parallel (quarter .e) (quarter .g)) := by
  have leaf : ∀ letter, (quarter letter).removeZeros = quarter letter := fun _ => rfl
  have silent : ∀ letter, (ghost letter).removeZeros = ghost letter := fun _ => rfl
  simp only [hauntedChord, rolledMordents, removeZeros, joinNonzero, leaf, silent, isZero_ghost,
    isZero_quarter, if_true, if_false, Bool.false_eq_true]

open Usual

/-- The ghosts have mordents and are rolled as well, and are not missed. -/
theorem hauntedChord_inaudible :
    ringingPlayers.BuiltIn ∧ (∀ shaping ∈ hauntedChord.attributes, shaping.binds = false) ∧
      0 < ({} : Context).tempo ∧
      ∃ p q, hauntedChord.perform ringingPlayers {} = .ok p ∧
        (rolledMordents (parallel (quarter .e) (quarter .g))).perform ringingPlayers {} = .ok q ∧
        q.duration = p.duration ∧ Event.lasting q.events = Event.lasting p.events := by
  have moving : 0 < ({} : Context).tempo := by decide +kernel
  have free : ∀ shaping ∈ hauntedChord.attributes, shaping.binds = false := by decide +kernel
  obtain ⟨p, performed⟩ := exists_of_isOk (show
    (hauntedChord.perform ringingPlayers {}).isOk = true by decide +kernel)
  obtain ⟨q, thinned, lasted, same⟩ := ((perform_removeZeros ringingPlayers hauntedChord).2
    ringingPlayers_builtIn free {} moving).1 p performed
  rw [hauntedChord_without_zeros] at thinned
  exact ⟨ringingPlayers_builtIn, free, moving, p, q, performed, thinned, lasted, same⟩

end MusicAlgebra.Music
