import MusicAlgebra.Proofs.Retiming
import MusicAlgebra.Proofs.Symmetry

/-!
# Retimed performances

A context says when a passage starts and how fast it is played, so a retiming acts on contexts as
well.  It is a symmetry of performing: in a retimed context built-in players sound the same events,
retimed.  This comes down to one lemma for every effect of a phrase, and it covers delays and
changes of tempo alike.
-/

namespace MusicAlgebra

open Outcome

variable {τ : Retiming} {players : Registry} {c : Context}

namespace Retiming

/-- The context in which a passage is performed retimed. -/
def context (τ : Retiming) (c : Context) : Context :=
  { c with startTime := τ.moment c.startTime, tempo := c.tempo / τ.factor.val }

def performance (τ : Retiming) (p : Performance) : Performance :=
  ⟨p.events.map τ.event, τ.length p.duration⟩

theorem delay_context (t : Rat) (c : Context) :
    (delay t).context c = { c with startTime := c.startTime + t } := by
  rw [context, delay_moment, delay_factor, Scale.val_one, div_one]

/-- Hurrying from the start of a context is a change of its tempo. -/
theorem hurry_context (r : Scale) (c : Context) :
    (hurry c.startTime r).context c = { c with tempo := c.tempo * r.val } := by
  rw [context, hurry_moment, sub_self, zero_div, add_zero, hurry, div_div_eq_mul_div, div_one]

variable (τ)

@[simp] theorem context_player (c : Context) : (τ.context c).player = c.player := rfl

@[simp] theorem context_key (c : Context) : (τ.context c).key = c.key := rfl

theorem context_tempo_pos (moving : 0 < c.tempo) : 0 < (τ.context c).tempo :=
  div_pos moving τ.factor.pos

variable {τ}

/-- A written length takes a retimed time in a retimed context. -/
theorem div_context_tempo (length : Rat) :
    length / (τ.context c).tempo = τ.length (length / c.tempo) := by
  rw [context, Retiming.length, div_div_eq_mul_div, div_mul_eq_mul_div]

/-- What starts later in a context starts later in the retimed one. -/
theorem context_later (length : Rat) :
    { τ.context c with
      startTime := (τ.context c).startTime + length / (τ.context c).tempo } =
      τ.context { c with startTime := c.startTime + length / c.tempo } := by
  rw [div_context_tempo]
  simp only [context, moment_add]

end Retiming

open Retiming

/-! ## Contexts -/

namespace Context

theorem scale_retimed (c : Context) (length : Rat) :
    (τ.context c).scale length = τ.length <$> c.scale length := by
  rw [scale, scale, div_context_tempo]
  have stopped : (τ.context c).tempo = 0 ↔ c.tempo = 0 := by
    rw [context, div_eq_zero_iff, or_iff_left τ.factor.pos.ne']
  simp only [stopped, apply_ite (τ.length <$> ·), map_ok, map_error]

theorem literalEvent_retimed (c : Context) (n : Note) :
    (τ.context c).literalEvent n = τ.event <$> c.literalEvent n := by
  rw [literalEvent, literalEvent, scale_retimed]
  have volume : (τ.context c).scaleVolume n.volume.val = c.scaleVolume n.volume.val := rfl
  rw [volume]
  cases c.scale n.length.val with
  | error failure => rfl
  | ok duration => cases c.scaleVolume n.volume.val <;> rfl

/-- Modifiers do to a retimed context what they do to a context. -/
theorem under_retimed [Limits] (c : Context) (modifier : Modifier) :
    (τ.context c).under players modifier = τ.context <$> c.under players modifier := by
  cases modifier with
  | tempo scale =>
      simp only [under, map_ok, context, div_mul_eq_mul_div]
  | instrument given =>
      simp only [under]
      cases Instrument.ofDatum? given <;> rfl
  | player name =>
      simp only [under]
      cases players.resolve name <;> rfl
  | _ => rfl

theorem withLoudness_retimed (c : Context) (attributes : List Attribute) :
    (τ.context c).withLoudness attributes = τ.context (c.withLoudness attributes) := by
  apply List.foldl_hom τ.context
  intro c shaping
  cases shaping.volume? <;> rfl

end Context

/-! ## Styles -/

/-- An attribute whose effect follows the time of its phrase: any but a trill whose notes have a
length of their own. -/
def Attribute.Elastic : Attribute → Prop
  | trill speed => speed.Elastic
  | _ => True

namespace Style

theorem playNote_retimed (style : Style) (n : Note) (c : Context) :
    style.playNote n (τ.context c) = τ.event <$> style.playNote n c := by
  rw [playNote, playNote, Context.literalEvent_retimed]
  cases c.literalEvent n with
  | error failure => rfl
  | ok written =>
      apply congrArg Except.ok
      simp only [event, length_mul]

theorem interpretCommon_retimed (events : List Event) (shaping : Attribute) :
    interpretCommon (events.map τ.event) shaping =
      (interpretCommon events shaping).map τ.event := by
  apply interpretCommon_map τ.event_volume
  · intro e volume
    rfl
  · intro fraction e
    simp only [event, length_mul]

theorem interpretFancy_retimed [Limits] {shaping : Attribute}
    (elastic : shaping.Elastic ∨ τ.factor = 1)
    (events : List Event) (key : Key) (span : Span) :
    interpretFancy (events.map τ.event) shaping key (τ.span span) =
      List.map τ.event <$> interpretFancy events shaping key span := by
  cases shaping with
  | trill speed =>
      simp only [interpretFancy, Event.trillAll_retimed elastic]
      cases Event.trillAll events key speed <;> rfl
  | crescendo amount | diminuendo amount =>
      apply congrArg Except.ok
      apply reweigh_map
      · intro e
        rw [event_volume, event_onset, Span.progress_retimed]
      · intro e volume
        rfl
  | slurred fraction => exact congrArg Except.ok (Event.slur_retimed events fraction.val)
  | pedal => exact congrArg Except.ok (Event.pedal_retimed events)
  | mordent | invertedMordent | doubleMordent =>
      exact congrArg Except.ok (Event.mordents_retimed events _ _)
  | arpeggioUp | arpeggioDown => exact congrArg Except.ok (Event.arpeggio_retimed _ events)
  | diatonicTranspose degrees =>
      apply congrArg Except.ok
      simp only [List.map_map]
      rfl
  | _ => exact congrArg Except.ok (interpretCommon_retimed events _)

theorem interpretPhrase_retimed [Limits] (style : Style) {shaping : Attribute}
    (elastic : shaping.Elastic ∨ τ.factor = 1) (events : List Event) (c : Context) (span : Span) :
    style.interpretPhrase (events.map τ.event) shaping (τ.context c) (τ.span span) =
      List.map τ.event <$> style.interpretPhrase events shaping c span := by
  cases style with
  | fancy => exact interpretFancy_retimed elastic events c.key span
  | _ => exact congrArg Except.ok (interpretCommon_retimed events shaping)

end Style

/-! ## Phrases -/

namespace Performance

variable {style : Style}

theorem shape_retimed [Limits] {shaping : Attribute} (elastic : shaping.Elastic ∨ τ.factor = 1)
    (p : Performance) :
    (τ.performance p).shape (.builtIn style) (τ.context c) shaping =
      τ.performance <$> p.shape (.builtIn style) c shaping := by
  have span : (⟨(τ.context c).startTime, τ.length p.duration⟩ : Span) =
      τ.span ⟨c.startTime, p.duration⟩ := rfl
  cases shaping with
  | loudness | dynamic => rfl
  | ritardando | accelerando =>
      apply congrArg Except.ok
      simp only [performance, List.map_map, Function.comp_def, span, Span.stretch_retimed,
        length_mul]
  | _ =>
      have interpreted := style.interpretPhrase_retimed elastic p.events c ⟨c.startTime, p.duration⟩
      simp only [shape, performance, span, Player.interpretPhrase, interpreted]
      cases style.interpretPhrase p.events _ c ⟨c.startTime, p.duration⟩ <;> rfl

end Performance

/-! ## Scores -/

namespace Music

/-- Music in which no attribute of any phrase is a trill whose notes have a length of their own. -/
def Elastic : Music → Prop
  | note _ | rest _ => True
  | sequential left right | parallel left right => left.Elastic ∧ right.Elastic
  | modified (.phrase attributes) inner =>
      (∀ shaping ∈ attributes, shaping.Elastic) ∧ inner.Elastic
  | modified _ inner => inner.Elastic

theorem Elastic.attributes {m : Music} (elastic : m.Elastic) :
    ∀ shaping ∈ m.attributes, shaping.Elastic := by
  induction m with
  | note n | rest length =>
      intro shaping member
      cases member
  | sequential left right leftIH rightIH | parallel left right leftIH rightIH =>
      simp only [attributes_sequential, attributes_parallel, List.forall_mem_append]
      exact ⟨leftIH elastic.1, rightIH elastic.2⟩
  | modified modifier inner ih =>
      rw [attributes_modified, List.forall_mem_append]
      cases modifier with
      | phrase attributes => exact ⟨elastic.1, ih elastic.2⟩
      | _ => exact ⟨List.forall_mem_nil _, ih elastic⟩

end Music

/-- Every retiming is a symmetry, as long as it does not stretch trills whose notes have a length of
their own. -/
def Retiming.symmetry [Limits] (τ : Retiming) (players : Registry) :
    Symmetry players fun shaping => shaping.Elastic ∨ τ.factor = 1 where
  context := τ.context
  event := τ.event
  length := τ.length
  noLater_event := Event.noLater_retimed
  context_player := τ.context_player
  div_context_tempo _ := div_context_tempo
  context_later _ := context_later
  under_context := Context.under_retimed
  withLoudness_context := Context.withLoudness_retimed
  playNote_context := Style.playNote_retimed
  shape_context _ _ _ p elastic := Performance.shape_retimed elastic p

/-- Performing commutes with retiming, failures included. -/
theorem Music.perform_retimed [Limits] (builtIn : players.BuiltIn) {m : Music}
    (elastic : m.Elastic ∨ τ.factor = 1) (moving : 0 < c.tempo) :
    m.perform players (τ.context c) = τ.performance <$> m.perform players c := by
  apply (τ.symmetry players).perform_context builtIn _ moving (τ.context_tempo_pos moving)
  intro shaping member
  exact elastic.imp_left fun elastic => elastic.attributes shaping member

end MusicAlgebra
