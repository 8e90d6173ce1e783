import MusicAlgebra.Proofs.DelayedPerformance
import MusicAlgebra.Proofs.HastenedPerformance
import MusicAlgebra.Proofs.Symmetry
import MusicAlgebra.Proofs.Transposition

/-!
# Transposed performances

Transposing a score is a symmetry of performing: built-in players sound the same events some
semitones higher or lower.  Where phrases have ornaments that move by degrees of the key this holds
for whole octaves only, since the neighbours of a note depend on its place in the scale and a
transposition does not move the key.
-/

namespace MusicAlgebra

open Outcome

variable {n : Int} {players : Registry} {c : Context}

/-- Whether an attribute moves notes by degrees of the key. -/
def Attribute.usesKey : Attribute → Bool
  | trill _ | mordent | invertedMordent | doubleMordent | diatonicTranspose _ => true
  | _ => false

/-! ## Contexts -/

namespace Context

/-- The context in which a passage is performed some semitones higher. -/
def transposed (n : Int) (c : Context) : Context :=
  { c with transposition := c.transposition + n }

@[simp] theorem transposed_player (c : Context) : (c.transposed n).player = c.player := rfl

theorem literalEvent_transposed (c : Context) (written : Note) :
    (c.transposed n).literalEvent written = Event.transposed n <$> c.literalEvent written := by
  have scaled : (c.transposed n).scale written.length.val = c.scale written.length.val := rfl
  have volume : (c.transposed n).scaleVolume written.volume.val =
      c.scaleVolume written.volume.val := rfl
  rw [literalEvent, literalEvent, scaled, volume]
  cases c.scale written.length.val with
  | error failure => rfl
  | ok duration =>
      cases c.scaleVolume written.volume.val with
      | error failure => rfl
      | ok volume =>
          apply congrArg Except.ok
          simp only [Event.transposed, transposed, Int.add_assoc]

/-- Modifiers do to a transposed context what they do to a context; in particular transpositions
add up in either order. -/
theorem under_transposed [Limits] (c : Context) (modifier : Modifier) :
    (c.transposed n).under players modifier = transposed n <$> c.under players modifier := by
  cases modifier with
  | transpose semitones =>
      simp only [under, map_ok, transposed, Int.add_right_comm]
  | instrument given =>
      simp only [under]
      cases Instrument.ofDatum? given <;> rfl
  | player name =>
      simp only [under]
      cases players.resolve name <;> rfl
  | _ => rfl

theorem withLoudness_transposed (c : Context) (attributes : List Attribute) :
    (c.transposed n).withLoudness attributes = (c.withLoudness attributes).transposed n := by
  apply List.foldl_hom (transposed n)
  intro c shaping
  cases shaping.volume? <;> rfl

end Context

/-! ## Styles -/

namespace Style

theorem playNote_transposed (style : Style) (written : Note) (c : Context) :
    style.playNote written (c.transposed n) =
      Event.transposed n <$> style.playNote written c := by
  rw [playNote, playNote, Context.literalEvent_transposed]
  cases c.literalEvent written <;> rfl

theorem interpretCommon_transposed (events : List Event) (shaping : Attribute) :
    interpretCommon (events.map (Event.transposed n)) shaping =
      (interpretCommon events shaping).map (Event.transposed n) :=
  interpretCommon_map Event.transposed_volume (fun _ _ => rfl) (fun _ _ => rfl) events shaping

theorem interpretFancy_transposed [Limits] {shaping : Attribute}
    (followed : shaping.usesKey = false ∨ 12 ∣ n) (events : List Event) (key : Key)
    (span : Span) :
    interpretFancy (events.map (Event.transposed n)) shaping key span =
      List.map (Event.transposed n) <$> interpretFancy events shaping key span := by
  -- Attributes that use the key leave whole octaves only.
  have octaves : shaping.usesKey = true → 12 ∣ n := by
    intro uses
    exact followed.resolve_left (by simp [uses])
  cases shaping with
  | trill speed =>
      have trilled := Event.trillAll_map
        (fun e => Event.trill_transposed (octaves rfl) e key speed) events
      simp only [interpretFancy, trilled]
      cases Event.trillAll events key speed <;> rfl
  | mordent | invertedMordent | doubleMordent =>
      apply congrArg Except.ok
      apply Event.mordents_transposed
      intro pitch
      exact Key.diatonicTranspose_add (octaves rfl) key pitch _
  | diatonicTranspose degrees =>
      apply congrArg Except.ok
      simp only [List.map_map]
      apply List.map_congr_left
      intro e member
      simp only [Function.comp_apply, Event.transposed,
        Key.diatonicTranspose_add (octaves rfl)]
  | crescendo amount | diminuendo amount =>
      apply congrArg Except.ok
      apply reweigh_map
      · intro e
        rw [Event.transposed_volume, Event.transposed_onset]
      · intro e volume
        rfl
  | slurred fraction => exact congrArg Except.ok (Event.slur_transposed events fraction.val)
  | pedal => exact congrArg Except.ok (Event.pedal_transposed events)
  | arpeggioUp | arpeggioDown =>
      exact congrArg Except.ok (Event.arpeggio_transposed _ events)
  | _ => exact congrArg Except.ok (interpretCommon_transposed events _)

theorem interpretPhrase_transposed [Limits] (style : Style) {shaping : Attribute}
    (followed : shaping.usesKey = false ∨ 12 ∣ n) (events : List Event) (c : Context)
    (span : Span) :
    style.interpretPhrase (events.map (Event.transposed n)) shaping (c.transposed n) span =
      List.map (Event.transposed n) <$> style.interpretPhrase events shaping c span := by
  cases style with
  | fancy => exact interpretFancy_transposed followed events c.key span
  | _ => exact congrArg Except.ok (interpretCommon_transposed events shaping)

end Style

/-! ## Phrases and scores -/

namespace Performance

/-- The same performance some semitones higher. -/
def transposed (n : Int) (p : Performance) : Performance :=
  { p with events := p.events.map (Event.transposed n) }

theorem shape_transposed [Limits] {style : Style} {shaping : Attribute}
    (followed : shaping.usesKey = false ∨ 12 ∣ n) (p : Performance) :
    (p.transposed n).shape (.builtIn style) (c.transposed n) shaping =
      transposed n <$> p.shape (.builtIn style) c shaping := by
  have span : (⟨(c.transposed n).startTime, p.duration⟩ : Span) =
      ⟨c.startTime, p.duration⟩ := rfl
  cases shaping with
  | loudness | dynamic => rfl
  | ritardando | accelerando =>
      apply congrArg Except.ok
      simp only [transposed, List.map_map, Function.comp_def, span, Span.stretch_transposed]
  | _ =>
      have interpreted := style.interpretPhrase_transposed followed p.events c
        ⟨c.startTime, p.duration⟩
      simp only [shape, transposed, span, Player.interpretPhrase, interpreted]
      cases style.interpretPhrase p.events _ c ⟨c.startTime, p.duration⟩ <;> rfl

theorem granted_transposed [Limits] (n : Int) (p : Performance) :
    (p.transposed n).granted = transposed n <$> p.granted := by
  have lasting : (p.transposed n).duration = p.duration := rfl
  rw [granted, granted, lasting]
  split <;> rfl

end Performance

namespace Music

open Performance

/-- Every transposition is a symmetry for attributes that do not use the key, and every
transposition by octaves is one for all attributes. -/
def transposition [Limits] (n : Int) (players : Registry) :
    Symmetry players fun shaping => shaping.usesKey = false ∨ 12 ∣ n where
  context := Context.transposed n
  event := Event.transposed n
  length := id
  noLater_event := Event.noLater_transposed
  context_player _ := rfl
  div_context_tempo _ _ := rfl
  context_later _ _ := rfl
  under_context := Context.under_transposed
  withLoudness_context := Context.withLoudness_transposed
  playNote_context := Style.playNote_transposed
  shape_context _ _ _ p followed := Performance.shape_transposed followed p

/-- The transposition law.  Under a transposition by `n` every event sounds `n` semitones higher;
onsets, durations, volumes, instruments, the order of the events, the duration of the whole and any
failure stay.  Ornaments that use the key follow a transposition by whole octaves, and without them
any transposition will do. -/
theorem perform_transposed [Limits] (builtIn : players.BuiltIn) (m : Music) (moving : 0 < c.tempo)
    (n : Int)
    (followed : (∀ shaping ∈ m.attributes, shaping.usesKey = false) ∨ 12 ∣ n) :
    (modified (.transpose n) m).perform players c =
        Performance.transposed n <$> m.perform players c ∧
      (Operand.music (modified (.transpose n) m)).perform players c =
        Performance.transposed n <$> (Operand.music m).perform players c := by
  have admitted : ∀ shaping ∈ m.attributes, shaping.usesKey = false ∨ 12 ∣ n := by
    intro shaping member
    exact followed.imp_left fun free => free shaping member
  have transposed : (modified (.transpose n) m).perform players c =
      Performance.transposed n <$> m.perform players c := by
    rw [perform_modified players m c (by simp)]
    exact (transposition n players).perform_context builtIn admitted moving moving
  refine ⟨transposed, ?_⟩
  rw [Operand.perform, Operand.perform, transposed]
  cases m.perform players c with
  | error failure => rfl
  | ok p => rw [map_ok, ok_bind, ok_bind, granted_transposed]

open Usual

/-- A rolled chord follows a fourth upwards, trills and mordents follow two octaves downwards. -/
theorem rolledChord_transposed :
    ringingPlayers.BuiltIn ∧ (0 : Rat) < 3 / 2 ∧
      (∀ shaping ∈ swellingChord.attributes, shaping.usesKey = false) ∧ (12 : Int) ∣ -24 ∧
      ∃ p q, swellingChord.perform ringingPlayers { tempo := 3 / 2 } = .ok p ∧
        (modified (.transpose 5) swellingChord).perform ringingPlayers { tempo := 3 / 2 } =
          .ok (p.transposed 5) ∧
        ornatePassage.perform ringingPlayers { tempo := 3 / 2 } = .ok q ∧
        (modified (.transpose (-24)) ornatePassage).perform ringingPlayers { tempo := 3 / 2 } =
          .ok (q.transposed (-24)) := by
  have moving : (0 : Rat) < 3 / 2 := by decide +kernel
  have keyless : ∀ shaping ∈ swellingChord.attributes, shaping.usesKey = false := by decide
  have octaves : (12 : Int) ∣ -24 := by decide
  obtain ⟨p, performed⟩ := exists_of_isOk (show
    (swellingChord.perform ringingPlayers { tempo := 3 / 2 }).isOk = true by decide +kernel)
  obtain ⟨q, ornate⟩ := exists_of_isOk (show
    (ornatePassage.perform ringingPlayers { tempo := 3 / 2 }).isOk = true by decide +kernel)
  have fourth := (perform_transposed (c := { tempo := 3 / 2 }) ringingPlayers_builtIn swellingChord
    moving 5 (.inl keyless)).1
  have twoOctaves := (perform_transposed (c := { tempo := 3 / 2 }) ringingPlayers_builtIn
    ornatePassage moving (-24) (.inr octaves)).1
  rw [performed] at fourth
  rw [ornate] at twoOctaves
  exact ⟨ringingPlayers_builtIn, moving, keyless, octaves, p, q, performed, fourth, ornate,
    twoOctaves⟩

end Music

end MusicAlgebra
