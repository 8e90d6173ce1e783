import MusicAlgebra.Proofs.PairwiseReading
import MusicAlgebra.Proofs.PlayableEvents

/-!
# Playable performances

The built-in players sound notes that a device can play and keep events playable whatever attributes
shape them, in any order.  So a whole performance is playable, and no event of it begins before the
performance does.
-/

namespace MusicAlgebra

open Outcome Event

variable {start : Rat} {events : List Event} {players : Registry} {c inside : Context}

/-! ## Styles -/

theorem Context.loud_of_scaleVolume {volume scaled : Int}
    (rounded : c.scaleVolume volume = .ok scaled) : 0 ≤ scaled ∧ scaled ≤ 127 := by
  rw [scaleVolume] at rounded
  split at rounded
  · cases rounded
  · cases rounded
    exact ⟨Volume.clamp_nonneg _, Volume.clamp_le _⟩

namespace Style

theorem lengthFactor_nonneg (style : Style) : 0 ≤ style.lengthFactor := by
  cases style with
  | staccato fraction inside => exact inside.1.le
  | legato overlap one_le => exact zero_le_one.trans one_le
  | _ => exact zero_le_one

theorem playable_of_playNote {style : Style} {n : Note} {e : Event} (moving : 0 < c.tempo)
    (canonical : Instrument.IsCanonical c.instrument) (played : style.playNote n c = .ok e) :
    e.Playable c.startTime := by
  obtain ⟨written, denoted, played⟩ := bind_eq_ok.1 played
  cases played
  apply Playable.rescaled _ style.lengthFactor_nonneg
  rw [Context.literalEvent, Context.scale_of_pos moving, ok_bind] at denoted
  obtain ⟨volume, scaled, denoted⟩ := bind_eq_ok.1 denoted
  cases denoted
  constructor
  · exact le_rfl
  · exact div_nonneg n.length.nonneg moving.le
  · exact Context.loud_of_scaleVolume scaled
  · exact canonical

theorem allPlayable_reweigh (playable : AllPlayable start events) (weight : Event → Rat) :
    AllPlayable start (reweigh weight events) := by
  apply playable.map
  intro e playable
  exact playable.reweighed _

theorem allPlayable_rescale (playable : AllPlayable start events) {fraction : Rat}
    (nonneg : 0 ≤ fraction) : AllPlayable start (rescale fraction events) := by
  apply playable.map
  intro e playable
  exact playable.rescaled nonneg

theorem allPlayable_interpretCommon (playable : AllPlayable start events) (shaping : Attribute) :
    AllPlayable start (interpretCommon events shaping) := by
  cases shaping with
  | accent factor => exact allPlayable_reweigh playable _
  | staccato fraction => exact allPlayable_rescale playable fraction.nonneg
  | legato fraction => exact allPlayable_rescale playable fraction.nonneg
  | _ => exact playable

theorem allPlayable_of_interpretFancy [Limits] {shaping : Attribute} {key : Key} {span : Span}
    {shaped : List Event} (playable : AllPlayable start events)
    (interpreted : interpretFancy events shaping key span = .ok shaped) :
    AllPlayable start shaped := by
  have mordent : ∀ neighbour : Event → Int, ∀ shape, AllPlayable start
      (events.flatMap fun e => e.mordent (neighbour e) shape) := by
    intro neighbour shape
    apply playable.flatMap
    intro e playable
    exact playable.mordent (neighbour e) shape
  cases shaping with
  | trill speed =>
      rw [interpretFancy] at interpreted
      cases trilled : trillAll events key speed with
      | error excess =>
          rw [trilled] at interpreted
          cases interpreted
      | ok pieces =>
          rw [trilled] at interpreted
          cases interpreted
          exact playable.trillAll trilled
  | crescendo amount | diminuendo amount =>
      cases interpreted
      exact allPlayable_reweigh playable _
  | slurred fraction =>
      cases interpreted
      exact playable.slur fraction.nonneg
  | pedal =>
      cases interpreted
      exact playable.pedal
  | mordent | invertedMordent | doubleMordent =>
      cases interpreted
      exact mordent _ _
  | arpeggioUp | arpeggioDown =>
      cases interpreted
      exact playable.arpeggio _
  | diatonicTranspose degrees =>
      cases interpreted
      apply playable.map
      intro e playable
      exact playable.moved _ playable.begins playable.lasts
  | _ =>
      cases interpreted
      exact allPlayable_interpretCommon playable _

theorem allPlayable_of_interpretPhrase [Limits] {style : Style} {shaping : Attribute} {span : Span}
    {shaped : List Event} (playable : AllPlayable start events)
    (interpreted : style.interpretPhrase events shaping c span = .ok shaped) :
    AllPlayable start shaped := by
  cases style with
  | fancy => exact allPlayable_of_interpretFancy playable interpreted
  | _ =>
      cases interpreted
      exact allPlayable_interpretCommon playable shaping

end Style

/-! ## Phrases -/

/-- One attribute keeps the events of a phrase playable. -/
theorem Performance.allPlayable_of_shape [Limits] {style : Style} {shaping : Attribute}
    {p q : Performance} (playable : AllPlayable c.startTime p.events)
    (shaped : p.shape (.builtIn style) c shaping = .ok q) :
    AllPlayable c.startTime q.events := by
  cases shaping with
  | loudness volume | dynamic standard =>
      cases shaped
      exact playable
  | ritardando amount | accelerando amount le_half =>
      cases shaped
      apply playable.map
      intro e playable
      exact Playable.stretched ⟨c.startTime, p.duration⟩ playable _
  | _ =>
      obtain ⟨events, interpreted, shaped⟩ := bind_eq_ok.1 shaped
      cases shaped
      exact Style.allPlayable_of_interpretPhrase playable interpreted

/-- And so do any attributes in any order. -/
theorem Performance.allPlayable_of_shapeAll [Limits] {style : Style} {attributes : List Attribute}
    {p q : Performance} (playable : AllPlayable c.startTime p.events)
    (shaped : p.shapeAll (.builtIn style) c attributes = .ok q) :
    AllPlayable c.startTime q.events := by
  obtain ⟨unsorted, run, shaped⟩ := bind_eq_ok.1 shaped
  cases shaped
  have keeps : ∀ (before : Performance) shaping after, AllPlayable c.startTime before.events →
      before.shape (.builtIn style) c shaping = .ok after →
        AllPlayable c.startTime after.events := by
    intro before shaping after playable shaped
    exact allPlayable_of_shape playable shaped
  apply AllPlayable.sort
  exact foldlM_invariant keeps playable run

/-! ## Scores -/

theorem Context.under_canonical [Limits] {modifier : Modifier}
    (derived : c.under players modifier = .ok inside)
    (canonical : Instrument.IsCanonical c.instrument) :
    Instrument.IsCanonical inside.instrument := by
  cases derives_of_under derived with
  | instrument named => exact Instrument.isCanonical_name _
  | _ => exact canonical

namespace Music

open Performance

theorem allPlayable_of_performPairwise [Limits] (builtIn : players.BuiltIn) {m : Music}
    (moving : 0 < c.tempo) (canonical : Instrument.IsCanonical c.instrument)
    {passage : List Event} (read : m.performPairwise players c = .ok passage) :
    AllPlayable c.startTime passage := by
  induction m generalizing c passage with
  | note n =>
      obtain ⟨player, resolved, read⟩ := bind_eq_ok.1 read
      obtain ⟨style, rfl⟩ := builtIn c.player player resolved
      obtain ⟨sounded, played, rfl⟩ := map_eq_ok.1 read
      intro e member
      rw [List.mem_singleton.1 member]
      exact Style.playable_of_playNote moving canonical played
  | rest length =>
      cases read
      intro e member
      cases member
  | sequential left right leftIH rightIH =>
      obtain ⟨first, firstRead, read⟩ := bind_eq_ok.1 read
      obtain ⟨second, secondRead, read⟩ := bind_eq_ok.1 read
      cases read
      have entered : AllPlayable (c.startTime + left.duration.val / c.tempo) second := by
        apply rightIH _ _ secondRead
        · exact moving
        · exact canonical
      apply AllPlayable.sort
      apply AllPlayable.append
      · exact leftIH moving canonical firstRead
      · apply entered.from_earlier
        exact le_add_of_nonneg_right (div_nonneg left.duration.nonneg moving.le)
  | parallel left right leftIH rightIH =>
      obtain ⟨first, firstRead, read⟩ := bind_eq_ok.1 read
      obtain ⟨second, secondRead, read⟩ := bind_eq_ok.1 read
      cases read
      apply AllPlayable.sort
      apply AllPlayable.append
      · exact leftIH moving canonical firstRead
      · exact rightIH moving canonical secondRead
  | modified modifier inner ih =>
      by_cases phrased : ∃ attributes, modifier = .phrase attributes
      · obtain ⟨attributes, rfl⟩ := phrased
        obtain ⟨unshaped, innerRead, read⟩ := bind_eq_ok.1 read
        obtain ⟨player, resolved, read⟩ := bind_eq_ok.1 read
        obtain ⟨style, rfl⟩ := builtIn _ player resolved
        obtain ⟨p, shaped, rfl⟩ := map_eq_ok.1 read
        rw [← Context.withLoudness_startTime attributes]
        apply allPlayable_of_shapeAll _ shaped
        apply ih _ _ innerRead
        · rwa [Context.withLoudness_tempo]
        · rwa [Context.withLoudness_instrument]
      · rw [performPairwise_modified players inner c (not_exists.1 phrased)] at read
        obtain ⟨inside, derived, read⟩ := bind_eq_ok.1 read
        rw [← Context.under_startTime derived]
        exact ih (Context.under_tempo_pos derived moving)
          (Context.under_canonical derived canonical) read

/-- Every event of a performance by built-in players can be played: it does not begin before the
performance, lasts for some time, has a volume of the MIDI range and names an instrument.  Phrases
are safe in themselves: any attributes in any order keep such events, also those that ring past the
end of their phrase. -/
theorem perform_playable [Limits] (builtIn : players.BuiltIn) (m : Music) (moving : 0 < c.tempo)
    (canonical : Instrument.IsCanonical c.instrument) :
    (∀ p, m.perform players c = .ok p → AllPlayable c.startTime p.events) ∧
      (∀ p, (Operand.music m).perform players c = .ok p → AllPlayable c.startTime p.events) ∧
      ∀ (style : Style) (attributes : List Attribute) (p q : Performance),
        AllPlayable c.startTime p.events → p.shapeAll (.builtIn style) c attributes = .ok q →
          AllPlayable c.startTime q.events := by
  have performed : ∀ p, m.perform players c = .ok p → AllPlayable c.startTime p.events := by
    intro p performed
    have read := ((perform_eq_ok_iff builtIn.playsInOrder moving).1 performed).1
    exact allPlayable_of_performPairwise builtIn moving canonical read
  refine ⟨performed, ?_, ?_⟩
  · intro p played
    obtain ⟨q, played, granted⟩ := bind_eq_ok.1 played
    rw [granted_eq_ok] at granted
    exact granted.1 ▸ performed q played
  · intro style attributes p q playable shaped
    exact allPlayable_of_shapeAll playable shaped

/-- The fancy player and a legato one that lets notes ring four times as long as written. -/
def ringingPlayers : Registry :=
  ⟨[("default", .builtIn .fancy), ("ringing", .builtIn (.legato 4 (by decide +kernel)))]⟩

theorem ringingPlayers_builtIn [Limits] : ringingPlayers.BuiltIn := by
  apply Registry.builtIn_of_entries
  intro entry member
  simp only [ringingPlayers, List.mem_cons, List.not_mem_nil, or_false] at member
  rcases member with rfl | rfl
  · exact ⟨_, rfl⟩
  · exact ⟨_, rfl⟩

/-- A ringing note with a mordent, whose last part begins in a hurried phrase and ends far behind
it. -/
def hurriedMordent : Music :=
  modified (.phrase [.mordent, .accelerando (.nearest (1 / 2)) (by decide +kernel)])
    (modified (.player (.text "ringing")) (quarter .c))

/-- The last part of the mordent is held. -/
def heldMordent : Performance :=
  ⟨[⟨0, 3 / 32, 60, 100, "acoustic_grand_piano"⟩, ⟨3 / 32, 1 / 32, 62, 100, "acoustic_grand_piano"⟩,
    ⟨1 / 8, 0, 60, 100, "acoustic_grand_piano"⟩], 1 / 8⟩

open Usual

theorem hurriedMordent_playable :
    ringingPlayers.BuiltIn ∧ 0 < ({} : Context).tempo ∧
      Instrument.IsCanonical ({} : Context).instrument ∧
      hurriedMordent.perform ringingPlayers {} = .ok heldMordent ∧
      AllPlayable 0 heldMordent.events := by
  have moving : 0 < ({} : Context).tempo := by decide +kernel
  have canonical : Instrument.IsCanonical ({} : Context).instrument := by decide +kernel
  have sounded : (modified (.player (.text "ringing")) (quarter .c)).perform ringingPlayers {} =
      .ok ⟨[⟨0, 1, 60, 100, "acoustic_grand_piano"⟩], 1 / 4⟩ := by
    apply eq_ok_of_toOption
    decide +kernel
  have shaped : [Attribute.mordent, .accelerando (.nearest (1 / 2)) (by decide +kernel)].foldlM
      (shape (.builtIn .fancy) {}) ⟨[⟨0, 1, 60, 100, "acoustic_grand_piano"⟩], 1 / 4⟩ =
        .ok heldMordent := by
    apply eq_ok_of_toOption
    decide +kernel
  have sorted : Event.sort heldMordent.events = heldMordent.events := by
    apply sort_of_inOrder
    decide +kernel
  have player : ringingPlayers.resolve (.text "default") = .ok (.builtIn .fancy) := rfl
  have performed : hurriedMordent.perform ringingPlayers {} = .ok heldMordent := by
    rw [hurriedMordent, perform_phrase]
    dsimp only [Context.withLoudness, List.foldl_cons, List.foldl_nil, Attribute.volume?]
    rw [sounded, ok_bind, player, ok_bind, shapeAll, shaped, ok_bind, sorted]
    rfl
  have playable := (perform_playable ringingPlayers_builtIn hurriedMordent moving canonical).1
  exact ⟨ringingPlayers_builtIn, moving, canonical, performed, playable heldMordent performed⟩

end Music

end MusicAlgebra
