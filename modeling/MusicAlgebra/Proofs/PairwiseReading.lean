import MusicAlgebra.Proofs.PerformedPairs
import MusicAlgebra.Proofs.Players

/-!
# Reading a score pair by pair

A score can be read as its tree shows it, without chains, running times and merging: the events of
two operands, the second one entering when the first one ends or together with it, are put behind
each other and sorted.  This module states that reading and shows that the interpreter follows it
whenever players sound the events of a note in order, failures included.
-/

namespace MusicAlgebra

open Outcome

/-- Two passages joined: in order, and of simultaneous events those of the first passage stand
before those of the second. -/
structure Event.Joined (first second whole : List Event) : Prop where
  order : InOrder whole
  moments : ∀ moment, atMoment moment whole = atMoment moment first ++ atMoment moment second

theorem Event.joined_sort (first second : List Event) :
    Joined first second (sort (first ++ second)) := by
  constructor
  · exact inOrder_sort _
  · intro moment
    rw [atMoment_sort, atMoment_append]

namespace Music

open Performance

variable {players : Registry} {c : Context}

/-- The events of music, its compositions read pair by pair.  The right operand of a sequence enters
once the length of the left one has passed; the events of two operands are put behind each other and
sorted. -/
def performPairwise [Limits] (players : Registry) : Music → Context → Except PerformFailure
    (List Event)
  | note n, c => do
      let player ← players.resolve c.player
      player.playNote n c
  | rest _, _ => .ok []
  | sequential left right, c => do
      let first ← left.performPairwise players c
      let second ← right.performPairwise players
        { c with startTime := c.startTime + left.duration.val / c.tempo }
      return Event.sort (first ++ second)
  | parallel left right, c => do
      let first ← left.performPairwise players c
      let second ← right.performPairwise players c
      return Event.sort (first ++ second)
  | modified (.phrase attributes) inner, c => do
      let c := c.withLoudness attributes
      let passage ← inner.performPairwise players c
      let player ← players.resolve c.player
      events <$> shapeAll player c attributes ⟨passage, inner.duration.val / c.tempo⟩
  | modified modifier inner, c => do
      let c ← c.under players modifier
      inner.performPairwise players c

/-- Under any modifier but a phrase a passage is read in the context that the modifier derives. -/
theorem performPairwise_modified [Limits] (players : Registry) {modifier : Modifier} (inner : Music)
    (c : Context) (plain : ∀ attributes, modifier ≠ .phrase attributes) :
    (modified modifier inner).performPairwise players c = (do
      let c ← c.under players modifier
      inner.performPairwise players c) := by
  cases modifier with
  | phrase attributes => exact absurd rfl (plain attributes)
  | _ => rfl

/-- A reading yields events in order. -/
theorem inOrder_of_performPairwise [Limits] (ordered : players.PlaysInOrder) {m : Music}
    {passage : List Event} (read : m.performPairwise players c = .ok passage) :
    Event.InOrder passage := by
  induction m generalizing c with
  | note n =>
      obtain ⟨player, resolved, played⟩ := bind_eq_ok.1 read
      exact ordered c.player player resolved n c passage played
  | rest length =>
      cases read
      exact .nil
  | sequential left right | parallel left right =>
      obtain ⟨first, -, read⟩ := bind_eq_ok.1 read
      obtain ⟨second, -, read⟩ := bind_eq_ok.1 read
      cases read
      exact Event.inOrder_sort _
  | modified modifier inner ih =>
      by_cases phrased : ∃ attributes, modifier = .phrase attributes
      · obtain ⟨attributes, rfl⟩ := phrased
        obtain ⟨unshaped, -, read⟩ := bind_eq_ok.1 read
        obtain ⟨player, -, read⟩ := bind_eq_ok.1 read
        obtain ⟨p, shaped, rfl⟩ := map_eq_ok.1 read
        obtain ⟨unsorted, -, sorted⟩ := bind_eq_ok.1 shaped
        cases sorted
        exact Event.inOrder_sort _
      · rw [performPairwise_modified players inner c (not_exists.1 phrased)] at read
        obtain ⟨inside, -, read⟩ := bind_eq_ok.1 read
        exact ih read

/-! ## The interpreter -/

/-- Reading after performing forgets the duration alone. -/
theorem events_of_performed [Limits] {m : Music} {duration : Rat}
    (performed : m.perform players c =
      (fun passage => ⟨passage, duration⟩) <$> m.performPairwise players c) :
    events <$> m.perform players c = m.performPairwise players c := by
  rw [performed]
  cases m.performPairwise players c <;> rfl

/-- Where two passages are in order, merging them is sorting their events. -/
theorem merge_passages {first second : Except PerformFailure (List Event)}
    (firstOrder : ∀ passage, first = .ok passage → Event.InOrder passage)
    (secondOrder : ∀ passage, second = .ok passage → Event.InOrder passage) (duration : Rat) :
    (do
      let first ← first
      let second ← second
      return Performance.mk (first.merge second Event.noLater) duration) =
      (fun passage => ⟨passage, duration⟩) <$> (do
        let first ← first
        let second ← second
        return Event.sort (first ++ second)) := by
  cases first with
  | error failure => rfl
  | ok first =>
      cases second with
      | error failure => rfl
      | ok second =>
          rw [ok_bind, ok_bind, Event.merge_pair_eq_sort (firstOrder first rfl)
            (secondOrder second rfl)]
          rfl

/-- The interpreter follows the reading pair by pair, failures included. -/
theorem perform_eq_pairwise [Limits] (ordered : players.PlaysInOrder) (m : Music)
    (moving : 0 < c.tempo) :
    m.perform players c =
      (fun passage => ⟨passage, m.duration.val / c.tempo⟩) <$> m.performPairwise players c := by
  induction m generalizing c with
  | note n =>
      rw [perform_note, performPairwise, Context.scale_of_pos moving, duration_note]
      cases players.resolve c.player with
      | error failure => rfl
      | ok player => cases player.playNote n c <;> rfl
  | rest length =>
      rw [perform_rest, Context.scale_of_pos moving, duration_rest]
      rfl
  | sequential left right leftIH rightIH =>
      have later := events_of_performed (rightIH (c := { c with
        startTime := c.startTime + left.duration.val / c.tempo }) moving)
      rw [perform_sequential_pair players left right moving, performPairwise,
        events_of_performed (leftIH moving), later]
      apply merge_passages
      · intro passage read
        exact inOrder_of_performPairwise ordered read
      · intro passage read
        exact inOrder_of_performPairwise ordered read
  | parallel left right leftIH rightIH =>
      rw [perform_parallel_pair players left right moving, performPairwise,
        events_of_performed (leftIH moving), events_of_performed (rightIH moving)]
      apply merge_passages
      · intro passage read
        exact inOrder_of_performPairwise ordered read
      · intro passage read
        exact inOrder_of_performPairwise ordered read
  | modified modifier inner ih =>
      by_cases phrased : ∃ attributes, modifier = .phrase attributes
      · obtain ⟨attributes, rfl⟩ := phrased
        have insideMoving : 0 < (c.withLoudness attributes).tempo := by
          rwa [Context.withLoudness_tempo]
        have stretched : (modified (.phrase attributes) inner).duration.val / c.tempo =
            inner.duration.val / (c.withLoudness attributes).tempo *
              (Attribute.totalTimeFactor attributes).val := by
          rw [duration_modified, Modifier.outward, Amount.val_times, Context.withLoudness_tempo,
            div_mul_eq_mul_div]
        rw [perform_phrase, performPairwise, stretched]
        dsimp only
        rw [ih insideMoving]
        cases inner.performPairwise players (c.withLoudness attributes) with
        | error failure => rfl
        | ok passage =>
            cases players.resolve (c.withLoudness attributes).player with
            | error failure => rfl
            | ok player =>
                simp only [map_ok, ok_bind]
                cases shaped : shapeAll player (c.withLoudness attributes) attributes
                    ⟨passage, inner.duration.val / (c.withLoudness attributes).tempo⟩ with
                | error failure => rfl
                | ok p => rw [map_ok, map_ok, ← shapeAll_duration shaped]
      · have plain := not_exists.1 phrased
        rw [perform_modified players inner c plain, performPairwise_modified players inner c plain]
        cases derived : c.under players modifier with
        | error failure => rfl
        | ok inside =>
            rw [ok_bind, ok_bind, ih (Context.under_tempo_pos derived moving), duration_modified,
              Context.outward_div_tempo derived]

/-- What is performed is what is read, for as long as the score says. -/
theorem perform_eq_ok_iff [Limits] (ordered : players.PlaysInOrder) {m : Music}
    (moving : 0 < c.tempo)
    {p : Performance} :
    m.perform players c = .ok p ↔
      m.performPairwise players c = .ok p.events ∧ p.duration = m.duration.val / c.tempo := by
  rw [perform_eq_pairwise ordered m moving, map_eq_ok]
  constructor
  · rintro ⟨passage, read, rfl⟩
    exact ⟨read, rfl⟩
  · rintro ⟨read, lasted⟩
    exact ⟨p.events, read, by rw [← lasted]⟩

/-- A sequence joins its first passage and its second one, which enters when the first one ends. -/
theorem joined_of_sequential [Limits] (ordered : players.PlaysInOrder) {left right : Music}
    (moving : 0 < c.tempo) {p : Performance}
    (performed : (sequential left right).perform players c = .ok p) :
    ∃ first second, left.perform players c = .ok first ∧
      right.perform players { c with startTime := c.startTime + left.duration.val / c.tempo } =
        .ok second ∧
      Event.Joined first.events second.events p.events := by
  obtain ⟨read, -⟩ := (perform_eq_ok_iff ordered moving).1 performed
  obtain ⟨first, firstRead, read⟩ := bind_eq_ok.1 read
  obtain ⟨second, secondRead, joined⟩ := bind_eq_ok.1 read
  refine ⟨⟨first, _⟩, ⟨second, _⟩, (perform_eq_ok_iff ordered moving).2 ⟨firstRead, rfl⟩,
    (perform_eq_ok_iff ordered ?_).2 ⟨secondRead, rfl⟩, ?_⟩
  · exact moving
  · rw [← Except.ok.inj joined]
    exact Event.joined_sort first second

/-- Passages in parallel are joined as they are. -/
theorem joined_of_parallel [Limits] (ordered : players.PlaysInOrder) {left right : Music}
    (moving : 0 < c.tempo) {p : Performance}
    (performed : (parallel left right).perform players c = .ok p) :
    ∃ first second, left.perform players c = .ok first ∧ right.perform players c = .ok second ∧
      Event.Joined first.events second.events p.events := by
  obtain ⟨read, -⟩ := (perform_eq_ok_iff ordered moving).1 performed
  obtain ⟨first, firstRead, read⟩ := bind_eq_ok.1 read
  obtain ⟨second, secondRead, joined⟩ := bind_eq_ok.1 read
  refine ⟨⟨first, _⟩, ⟨second, _⟩, (perform_eq_ok_iff ordered moving).2 ⟨firstRead, rfl⟩,
    (perform_eq_ok_iff ordered moving).2 ⟨secondRead, rfl⟩, ?_⟩
  rw [← Except.ok.inj joined]
  exact Event.joined_sort first second

/-- Performing is reading pair by pair, for every registry whose players sound the events of a note
in order; the built-in ones do.  The public entry looks at nothing but the duration besides.  So a
performance is in order, and of simultaneous events in two operands those of the left one come
first. -/
theorem perform_reads_pairs [Limits] (ordered : players.PlaysInOrder) (m : Music)
    (moving : 0 < c.tempo) :
    events <$> m.perform players c = m.performPairwise players c ∧
      (Operand.music m).perform players c =
        (do
          let passage ← m.performPairwise players c
          granted ⟨passage, m.duration.val / c.tempo⟩) ∧
      (∀ p, m.perform players c = .ok p → Event.InOrder p.events) ∧
      (∀ next p, (sequential m next).perform players c = .ok p →
        ∃ first second, m.perform players c = .ok first ∧
          next.perform players { c with startTime := c.startTime + m.duration.val / c.tempo } =
            .ok second ∧
          Event.Joined first.events second.events p.events) ∧
      (∀ other p, (parallel m other).perform players c = .ok p →
        ∃ first second, m.perform players c = .ok first ∧ other.perform players c = .ok second ∧
          Event.Joined first.events second.events p.events) ∧
      ∀ style, (Player.builtIn style).PlaysInOrder := by
  have performed := perform_eq_pairwise ordered m moving
  refine ⟨events_of_performed performed, ?_, ?_, ?_, ?_, Player.builtIn_playsInOrder⟩
  · rw [Operand.perform, performed]
    cases m.performPairwise players c <;> rfl
  · intro p played
    obtain ⟨read, -⟩ := (perform_eq_ok_iff ordered moving).1 played
    exact inOrder_of_performPairwise ordered read
  · intro next p played
    exact joined_of_sequential ordered moving played
  · intro other p played
    exact joined_of_parallel ordered moving played

/-- A player that sounds every note together with its octave. -/
def octaves : Player :=
  .custom "octaves"
    (fun n c =>
      let e : Event :=
        ⟨c.startTime, n.length.val / c.tempo, n.pitch.absolute, n.volume, c.instrument⟩
      .ok [e, { e with pitch := e.pitch + 12 }])
    (fun events _ _ _ => .ok events)

theorem octaves_playsInOrder : octaves.PlaysInOrder := by
  intro n c events played
  cases played
  exact List.pairwise_pair.2 le_rfl

theorem only_octaves_playsInOrder [Limits] :
    (⟨[("default", octaves)]⟩ : Registry).PlaysInOrder := by
  apply Registry.playsInOrder_of_entries
  intro entry member
  rw [List.mem_singleton.1 member]
  exact octaves_playsInOrder

/-- A voice that goes on with E while its slurred C still rings. -/
def slurredVoice : Music :=
  sequential (modified (.phrase [.legato (.nearest 2)]) (quarter .c)) (quarter .e)

/-- A voice that enters when the first one goes on. -/
def laterVoice : Music := sequential (rest (.nearest (1 / 4))) (quarter .a)

open Usual

theorem crossingVoices_reads_pairs :
    (⟨[("default", octaves)]⟩ : Registry).PlaysInOrder ∧ 0 < ({} : Context).tempo ∧
      ∃ p first second,
        (parallel slurredVoice laterVoice).perform ⟨[("default", octaves)]⟩ {} = .ok p ∧
          (parallel slurredVoice laterVoice).performPairwise ⟨[("default", octaves)]⟩ {} =
            .ok p.events ∧
          slurredVoice.perform ⟨[("default", octaves)]⟩ {} = .ok first ∧
          laterVoice.perform ⟨[("default", octaves)]⟩ {} = .ok second ∧
          Event.Joined first.events second.events p.events := by
  have moving : 0 < ({} : Context).tempo := by decide +kernel
  obtain ⟨p, performed⟩ := exists_of_isOk (show
    ((parallel slurredVoice laterVoice).perform ⟨[("default", octaves)]⟩ {}).isOk = true by
      decide +kernel)
  have read :=
    (perform_reads_pairs only_octaves_playsInOrder (parallel slurredVoice laterVoice) moving).1
  rw [performed] at read
  obtain ⟨first, second, firstOk, secondOk, joined⟩ :=
    (perform_reads_pairs only_octaves_playsInOrder slurredVoice moving).2.2.2.2.1 laterVoice p
      performed
  exact ⟨only_octaves_playsInOrder, moving, p, first, second, performed, read.symm, firstOk,
    secondOk, joined⟩

end Music

end MusicAlgebra
