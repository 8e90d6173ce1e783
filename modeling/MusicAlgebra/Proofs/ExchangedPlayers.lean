import Mathlib.Data.List.Forall2
import MusicAlgebra.Proofs.Comparison
import MusicAlgebra.Proofs.ContainedPerformance
import MusicAlgebra.Proofs.ScoreContents

/-!
# Exchanged players

A player decides how long notes sound, and nothing else.  Wherever events are sorted, merged,
delayed or weighed their onsets and volumes are looked at and never their durations, so a score can
be given to another player and every event starts where it did.  This module compares the built-in
styles event by event: what two styles make of a note, what an attribute makes of two events that
are alike, and how such events stand beside each other in whole performances.

Only the fancy style looks further than single events.  It is compared with the others where phrases
have no attributes but those that every style reads in the same way.
-/

namespace MusicAlgebra

open Outcome

/-! ## Attributes read by every style -/

namespace Attribute

/-- Whether every style makes the same of an attribute. -/
def isCommon : Attribute → Bool
  | accent _ | loudness _ | dynamic _ | ritardando _ | accelerando .. | staccato _ | legato _
  | marking .. => true
  | _ => false

/-- What an attribute makes of an event to those who understand the common attributes only. -/
def effect (shaping : Attribute) (span : Span) (e : Event) : Event :=
  match shaping with
  | ritardando amount => span.stretch amount.val e
  | accelerando amount _ => span.stretch (-amount.val) e
  | accent factor => { e with volume := Volume.clamp (e.volume * factor.val).floor }
  | staccato fraction | legato fraction => { e with duration := e.duration * fraction.val }
  | _ => e

end Attribute

/-- Whether a style reads an attribute as those do who understand the common ones only. -/
def Style.ReadsPlainly (style : Style) (shaping : Attribute) : Prop :=
  style = .fancy → shaping.isCommon = true

namespace Style

theorem readsPlainly_of_ne {style : Style} (plain : style ≠ .fancy) (shaping : Attribute) :
    style.ReadsPlainly shaping := fun ornate => absurd ornate plain

theorem interpretPhrase_plainly [Limits] {style : Style} {shaping : Attribute}
    (plain : style.ReadsPlainly shaping) (events : List Event) (c : Context) (span : Span) :
    style.interpretPhrase events shaping c span = .ok (interpretCommon events shaping) := by
  cases style with
  | fancy =>
      have common := plain rfl
      cases shaping <;> first | rfl | cases common
  | _ => rfl

theorem interpretCommon_eq_map {shaping : Attribute} (steady : shaping.tempoChange? = none)
    (events : List Event) (span : Span) :
    interpretCommon events shaping = events.map (shaping.effect span) := by
  cases shaping with
  | accent factor | staccato fraction | legato fraction => rfl
  | ritardando amount | accelerando amount le_half => cases steady
  | _ => exact (List.map_id events).symm

end Style

/-- Each event of a phrase is reshaped for itself. -/
theorem Performance.shape_plainly [Limits] {style : Style} {shaping : Attribute}
    (plain : style.ReadsPlainly shaping) (c : Context) (p : Performance) :
    p.shape (.builtIn style) c shaping =
      .ok ⟨p.events.map (shaping.effect ⟨c.startTime, p.duration⟩),
        p.duration * shaping.timeFactor.val⟩ := by
  have unstretched : p.duration = p.duration * (1 : Scale).val := (mul_one _).symm
  cases shaping with
  | ritardando amount | accelerando amount le_half => rfl
  | loudness volume | dynamic standard =>
      have untouched : p.events = p.events.map id := (List.map_id _).symm
      exact congrArg Except.ok (congr (congrArg Performance.mk untouched) unstretched)
  | _ =>
      have interpreted := Style.interpretPhrase_plainly plain p.events c ⟨c.startTime, p.duration⟩
      rw [Style.interpretCommon_eq_map rfl _ ⟨c.startTime, p.duration⟩] at interpreted
      simp only [shape, Player.interpretPhrase, interpreted, ok_bind]
      exact congrArg Except.ok (congrArg (Performance.mk _) unstretched)

/-! ## Events that are alike -/

/-- The same event, sounding `k` times as long. -/
def Event.lengthened (k : Rat) (e : Event) : Event := { e with duration := e.duration * k }

/-- A likeness of events that two styles produce and the attributes of a score keep. -/
structure Imitation (style other : Style) (admits : Attribute → Prop) where
  like : Event → Event → Prop
  plain : ∀ {shaping}, admits shaping → style.ReadsPlainly shaping ∧ other.ReadsPlainly shaping
  simultaneous : ∀ {d e}, like d e → d.onset = e.onset
  played : ∀ written : Event,
    like (written.lengthened style.lengthFactor) (written.lengthened other.lengthFactor)
  shaped : ∀ {shaping} (span : Span) {d e}, admits shaping → like d e →
    like (shaping.effect span d) (shaping.effect span e)

namespace Event

variable {like : Event → Event → Prop}

/-- Two events that are alike. -/
abbrev Paired (like : Event → Event → Prop) := { pair : Event × Event // like pair.1 pair.2 }

/-- Streams that are alike event by event are the two sides of one stream of pairs. -/
theorem exists_pairs {events others : List Event} (alike : List.Forall₂ like events others) :
    ∃ pairs : List (Paired like),
      events = pairs.map (fun pair => pair.1.1) ∧ others = pairs.map fun pair => pair.1.2 := by
  induction alike with
  | nil => exact ⟨[], rfl, rfl⟩
  | cons head _ ih =>
      obtain ⟨pairs, rfl, rfl⟩ := ih
      exact ⟨⟨(_, _), head⟩ :: pairs, rfl, rfl⟩

theorem forall₂_of_pairs (pairs : List (Paired like)) :
    List.Forall₂ like (pairs.map fun pair => pair.1.1) (pairs.map fun pair => pair.1.2) := by
  rw [List.forall₂_map_left_iff, List.forall₂_map_right_iff]
  exact List.forall₂_same.2 fun pair _ => pair.2

/-- Pairs are ordered by either side, where events that are alike start together. -/
def Paired.noLater (first second : Paired like) : Bool := first.1.1.noLater second.1.1

variable (simultaneous : ∀ {d e}, like d e → d.onset = e.onset)

include simultaneous

theorem noLater_of_paired (first second : Paired like) :
    first.noLater second = first.1.2.noLater second.1.2 := by
  rw [Paired.noLater, Event.noLater, Event.noLater, simultaneous first.2, simultaneous second.2]

theorem forall₂_merge {first first' second second' : List Event}
    (firstAlike : List.Forall₂ like first first') (secondAlike : List.Forall₂ like second second') :
    List.Forall₂ like (first.merge second noLater) (first'.merge second' noLater) := by
  obtain ⟨pairs, rfl, rfl⟩ := exists_pairs firstAlike
  obtain ⟨others, rfl, rfl⟩ := exists_pairs secondAlike
  have left : (pairs.merge others Paired.noLater).map (fun pair => pair.1.1) =
      (pairs.map fun pair => pair.1.1).merge (others.map fun pair => pair.1.1) noLater :=
    List.map_merge fun _ _ _ _ => rfl
  have right : (pairs.merge others Paired.noLater).map (fun pair => pair.1.2) =
      (pairs.map fun pair => pair.1.2).merge (others.map fun pair => pair.1.2) noLater :=
    List.map_merge fun one _ other _ => noLater_of_paired simultaneous one other
  rw [← left, ← right]
  exact forall₂_of_pairs _

theorem forall₂_sort {events others : List Event} (alike : List.Forall₂ like events others) :
    List.Forall₂ like (sort events) (sort others) := by
  obtain ⟨pairs, rfl, rfl⟩ := exists_pairs alike
  have left : (pairs.mergeSort Paired.noLater).map (fun pair => pair.1.1) =
      sort (pairs.map fun pair => pair.1.1) := List.map_mergeSort fun _ _ _ _ => rfl
  have right : (pairs.mergeSort Paired.noLater).map (fun pair => pair.1.2) =
      sort (pairs.map fun pair => pair.1.2) :=
    List.map_mergeSort fun one _ other _ => noLater_of_paired simultaneous one other
  rw [← left, ← right]
  exact forall₂_of_pairs _

end Event

/-! ## Scores -/

/-- A registry in which a style is found under a name. -/
structure Engaged [Limits] (style : Style) where
  players : Registry
  name : Datum
  resolved : players.resolve name = .ok (.builtIn style)

namespace Context

/-- The same context with a player of another name. -/
def playedBy (c : Context) (name : Datum) : Context := { c with player := name }

@[simp] theorem playedBy_player (c : Context) (name : Datum) :
    (c.playedBy name).player = name := rfl

/-- No modifier looks at the player, and only one of them changes it. -/
theorem under_playedBy [Limits] {modifier : Modifier}
    (unassigning : ∀ name, modifier ≠ .player name)
    (players others : Registry) (c : Context) (name : Datum) :
    (c.playedBy name).under players modifier =
      (fun inside => inside.playedBy name) <$> c.under others modifier := by
  cases modifier with
  | player other => exact absurd rfl (unassigning other)
  | instrument given =>
      simp only [under]
      cases Instrument.ofDatum? given <;> rfl
  | _ => rfl

theorem withLoudness_playedBy (c : Context) (attributes : List Attribute) (name : Datum) :
    (c.playedBy name).withLoudness attributes = (c.withLoudness attributes).playedBy name := by
  apply List.foldl_hom (playedBy · name)
  intro c shaping
  cases shaping.volume? <;> rfl

end Context

namespace Imitation

variable {style other : Style} {admits : Attribute → Prop}
variable (imitation : Imitation style other admits)

/-- Events that are alike stand side by side in both performances. -/
def comparison : Comparison where
  related := List.Forall₂ imitation.like
  merge := Event.forall₂_merge imitation.simultaneous
  sort := Event.forall₂_sort imitation.simultaneous

theorem agree_shape [Limits] {shaping : Attribute} (admitted : admits shaping) {c c' : Context}
    (start : c.startTime = c'.startTime) {p q : Performance}
    (alike : imitation.comparison.Likened p q) :
    Agree Eq imitation.comparison.Likened (p.shape (.builtIn style) c shaping)
      (q.shape (.builtIn other) c' shaping) := by
  have plain := imitation.plain admitted
  rw [Performance.shape_plainly plain.1, Performance.shape_plainly plain.2, start, alike.duration]
  refine .succeeded ⟨?_, rfl⟩
  exact List.rel_map (fun d e both => imitation.shaped _ admitted both) alike.events

theorem agree_note [Limits] (first : Engaged style) (second : Engaged other) (n : Note)
    (c : Context) :
    Agree Eq imitation.comparison.Likened
      ((Music.note n).perform first.players (c.playedBy first.name))
      ((Music.note n).perform second.players (c.playedBy second.name)) := by
  rw [Music.perform_note, Music.perform_note, Context.playedBy_player, Context.playedBy_player,
    first.resolved, second.resolved]
  have literal : ∀ name, (c.playedBy name).literalEvent n = c.literalEvent n := fun _ => rfl
  have lasting : ∀ name, (c.playedBy name).scale n.length.val = c.scale n.length.val := fun _ => rfl
  simp only [ok_bind, Player.playNote, Style.playNote, literal, lasting]
  cases c.literalEvent n with
  | error failure => exact .failed rfl
  | ok written =>
      cases c.scale n.length.val with
      | error failure => exact .failed rfl
      | ok duration => exact .succeeded ⟨.cons (imitation.played written) .nil, rfl⟩

/-- Both styles play a score alike, by induction over its tree. -/
theorem agree_perform [Limits] (first : Engaged style) (second : Engaged other) {m : Music}
    (unassigned : ∀ name, .player name ∉ m.modifiers)
    (admitted : ∀ shaping ∈ m.attributes, admits shaping) {c : Context} (moving : 0 < c.tempo) :
    Agree Eq imitation.comparison.Likened (m.perform first.players (c.playedBy first.name))
      (m.perform second.players (c.playedBy second.name)) := by
  have movingBy : ∀ {c : Context} name, 0 < c.tempo → 0 < (c.playedBy name).tempo :=
    fun _ moving => moving
  induction m generalizing c with
  | note n => exact imitation.agree_note first second n c
  | rest length =>
      rw [Music.perform_rest, Music.perform_rest]
      have lasting : ∀ name, (c.playedBy name).scale length.val = c.scale length.val := fun _ => rfl
      simp only [lasting]
      cases c.scale length.val with
      | error failure => exact .failed rfl
      | ok duration => exact .succeeded ⟨.nil, rfl⟩
  | sequential left right leftIH rightIH =>
      simp only [Music.modifiers_sequential, List.mem_append, not_or, forall_and] at unassigned
      rw [Music.attributes_sequential, List.forall_mem_append] at admitted
      rw [Music.perform_sequential_pair _ _ _ (movingBy _ moving),
        Music.perform_sequential_pair _ _ _ (movingBy _ moving)]
      -- The second passage enters at the same moment, whoever plays the first one.
      have entered := rightIH unassigned.2 admitted.2
        (c := { c with startTime := c.startTime + left.duration.val / c.tempo }) moving
      exact Comparison.joined (leftIH unassigned.1 admitted.1 moving) entered _
  | parallel left right leftIH rightIH =>
      simp only [Music.modifiers_parallel, List.mem_append, not_or, forall_and] at unassigned
      rw [Music.attributes_parallel, List.forall_mem_append] at admitted
      rw [Music.perform_parallel_pair _ _ _ (movingBy _ moving),
        Music.perform_parallel_pair _ _ _ (movingBy _ moving)]
      exact Comparison.joined (leftIH unassigned.1 admitted.1 moving)
        (rightIH unassigned.2 admitted.2 moving) _
  | modified modifier inner ih =>
      simp only [Music.modifiers_modified, List.mem_cons, not_or, forall_and] at unassigned
      rw [Music.attributes_modified, List.forall_mem_append] at admitted
      by_cases phrased : ∃ attributes, modifier = .phrase attributes
      · obtain ⟨attributes, rfl⟩ := phrased
        have insideMoving : 0 < (c.withLoudness attributes).tempo := by
          rwa [Context.withLoudness_tempo]
        rw [Music.perform_phrase, Music.perform_phrase]
        simp only [Context.withLoudness_playedBy, Context.playedBy_player]
        apply (ih unassigned.2 admitted.2 insideMoving).bind
        intro p q alike
        rw [first.resolved, second.resolved]
        exact Comparison.shaped
          (fun shaping member p q => imitation.agree_shape (admitted.1 shaping member) rfl) alike
      · have plain := not_exists.1 phrased
        have unassigning : ∀ name, modifier ≠ .player name :=
          fun name => Ne.symm (unassigned.1 name)
        rw [Music.perform_modified _ inner _ plain, Music.perform_modified _ inner _ plain,
          Context.under_playedBy unassigning _ first.players,
          Context.under_playedBy unassigning _ first.players]
        cases derived : c.under first.players modifier with
        | error failure => exact .failed rfl
        | ok inside => exact ih unassigned.2 admitted.2 (Context.under_tempo_pos derived moving)

end Imitation

/-! ## Built-in styles beside each other -/

/-- Events of the same note, however long it sounds. -/
structure Event.SameNote (d e : Event) : Prop where
  onset : d.onset = e.onset
  pitch : d.pitch = e.pitch
  volume : d.volume = e.volume
  instrument : d.instrument = e.instrument

namespace Event

theorem SameNote.effect {d e : Event} (same : d.SameNote e) (shaping : Attribute) (span : Span) :
    (shaping.effect span d).SameNote (shaping.effect span e) := by
  have stretched : ∀ amount, (span.stretch amount d).SameNote (span.stretch amount e) := by
    intro amount
    rw [Span.stretch, Span.stretch]
    split
    · exact same
    · exact ⟨by simp only [same.onset], same.pitch, same.volume, same.instrument⟩
  cases shaping with
  | ritardando amount => exact stretched amount.val
  | accelerando amount le_half => exact stretched (-amount.val)
  | accent factor =>
      refine ⟨same.onset, same.pitch, ?_, same.instrument⟩
      simp only [Attribute.effect, same.volume]
  | staccato fraction | legato fraction =>
      exact ⟨same.onset, same.pitch, same.volume, same.instrument⟩
  | _ => exact same

/-- Only a change of tempo looks at how long an event sounds, to see where it ends. -/
theorem effect_lengthened {shaping : Attribute} (steady : shaping.tempoChange? = none) (span : Span)
    (k : Rat) (e : Event) :
    shaping.effect span (e.lengthened k) = (shaping.effect span e).lengthened k := by
  cases shaping with
  | ritardando amount | accelerando amount le_half => cases steady
  | staccato fraction | legato fraction =>
      simp only [Attribute.effect, lengthened, mul_right_comm]
  | _ => rfl

end Event

namespace Imitation

variable {style other : Style}

/-- Styles that read single events only put the same notes at the same moments. -/
def sequencing (plain : style ≠ .fancy) (otherPlain : other ≠ .fancy) :
    Imitation style other fun _ => True where
  like := Event.SameNote
  plain _ := ⟨Style.readsPlainly_of_ne plain _, Style.readsPlainly_of_ne otherPlain _⟩
  simultaneous same := same.onset
  played _ := ⟨rfl, rfl, rfl, rfl⟩
  shaped span _ _ _ same := same.effect _ span

/-- At a steady tempo they differ by one factor from what is written. -/
def lengthening (otherPlain : other ≠ .fancy) :
    Imitation .literal other fun shaping => shaping.tempoChange? = none where
  like d e := e = d.lengthened other.lengthFactor
  plain _ := ⟨Style.readsPlainly_of_ne Style.noConfusion _,
    Style.readsPlainly_of_ne otherPlain _⟩
  simultaneous := by
    rintro d e rfl
    rfl
  played written := by simp only [Event.lengthened, Style.lengthFactor, mul_one]
  shaped := by
    rintro shaping span d e steady rfl
    exact Event.effect_lengthened steady span _ d

/-- The common attributes mean the same to the fancy style as to any other. -/
def embellishing : Imitation .literal .fancy fun shaping => shaping.isCommon = true where
  like := Eq
  plain common := ⟨Style.readsPlainly_of_ne Style.noConfusion _, fun _ => common⟩
  simultaneous := congrArg Event.onset
  played _ := rfl
  shaped _ _ _ _ same := congrArg _ same

end Imitation

namespace Performance

/-- The same notes at the same moments, and the same time until the next passage. -/
structure SameSequence (p q : Performance) : Prop where
  notes : List.Forall₂ Event.SameNote p.events q.events
  duration : p.duration = q.duration

/-- The same performance, every event sounding `k` times as long. -/
def lengthened (k : Rat) (p : Performance) : Performance :=
  { p with events := p.events.map (Event.lengthened k) }

theorem eq_lengthened {k : Rat} {p q : Performance} (duration : p.duration = q.duration)
    (events : List.Forall₂ (fun d e => e = d.lengthened k) p.events q.events) :
    q = p.lengthened k := by
  have mapped := List.forall₂_map_left_iff.2 (events.imp fun _ _ stretched => stretched.symm)
  rw [List.forall₂_eq_eq_eq] at mapped
  rw [lengthened, mapped, duration]

theorem eq_of_forall₂_eq {p q : Performance} (duration : p.duration = q.duration)
    (events : List.Forall₂ Eq p.events q.events) : p = q := by
  rw [List.forall₂_eq_eq_eq] at events
  exact congr (congrArg mk events) duration

end Performance

/-- Two styles perform a score with related results or with the same failure, as a part of a larger
score and as a whole. -/
def Engaged.Alike [Limits] {style other : Style} (first : Engaged style) (second : Engaged other)
    (results : Performance → Performance → Prop) (m : Music) (c : Context) : Prop :=
  Agree Eq results (m.perform first.players (c.playedBy first.name))
      (m.perform second.players (c.playedBy second.name)) ∧
    Agree Eq results ((Operand.music m).perform first.players (c.playedBy first.name))
      ((Operand.music m).perform second.players (c.playedBy second.name))

theorem Imitation.alike [Limits] {style other : Style} {admits : Attribute → Prop}
    (imitation : Imitation style other admits) (first : Engaged style) (second : Engaged other)
    {results : Performance → Performance → Prop} {m : Music} {c : Context} (moving : 0 < c.tempo)
    (unassigned : ∀ name, .player name ∉ m.modifiers)
    (admitted : ∀ shaping ∈ m.attributes, admits shaping)
    (seen : ∀ p q, imitation.comparison.Likened p q → results p q) :
    first.Alike second results m c := by
  have performed := imitation.agree_perform first second unassigned admitted moving
  have granted : Agree Eq imitation.comparison.Likened
      ((Operand.music m).perform first.players (c.playedBy first.name))
      ((Operand.music m).perform second.players (c.playedBy second.name)) := by
    rw [Operand.perform, Operand.perform]
    exact performed.bind fun p q alike => Comparison.granted (fun _ => rfl) alike
  exact ⟨performed.imp seen, granted.imp seen⟩

namespace Music

variable {c : Context}

/-- Players never change sequencing.  The default, the staccato and the legato player put the same
notes at the same moments and take the same time; at a steady tempo the lengths of their notes
differ by the fraction or the overlap throughout.  The fancy player differs from the default one
only by the attributes that are left to it. -/
theorem players_keep_sequencing [Limits] {fraction overlap : Rat}
    {inside : 0 < fraction ∧ fraction ≤ 1}
    {one_le : 1 ≤ overlap} (ordinary : Engaged .literal)
    (short : Engaged (.staccato fraction inside)) (long : Engaged (.legato overlap one_le))
    (ornate : Engaged .fancy) (m : Music) (moving : 0 < c.tempo)
    (unassigned : ∀ name, .player name ∉ m.modifiers) :
    ordinary.Alike short Performance.SameSequence m c ∧
      ordinary.Alike long Performance.SameSequence m c ∧
      short.Alike long Performance.SameSequence m c ∧
      ((∀ shaping ∈ m.attributes, shaping.tempoChange? = none) →
        ordinary.Alike short (fun p q => q = p.lengthened fraction) m c ∧
          ordinary.Alike long (fun p q => q = p.lengthened overlap) m c) ∧
      ((∀ shaping ∈ m.attributes, shaping.isCommon = true) → ordinary.Alike ornate Eq m c) := by
  have sequenced : ∀ {style other : Style} (first : Engaged style) (second : Engaged other),
      style ≠ .fancy → other ≠ .fancy → first.Alike second Performance.SameSequence m c := by
    intro style other first second plain otherPlain
    exact (Imitation.sequencing plain otherPlain).alike first second moving unassigned
      (fun _ _ => trivial) fun p q likened => ⟨likened.events, likened.duration⟩
  have lengthened : ∀ {style : Style} (second : Engaged style), style ≠ .fancy →
      (∀ shaping ∈ m.attributes, shaping.tempoChange? = none) →
      ordinary.Alike second (fun p q => q = p.lengthened style.lengthFactor) m c := by
    intro style second plain steady
    exact (Imitation.lengthening plain).alike ordinary second moving unassigned steady
      fun p q likened => Performance.eq_lengthened likened.duration likened.events
  refine ⟨sequenced ordinary short Style.noConfusion Style.noConfusion,
    sequenced ordinary long Style.noConfusion Style.noConfusion,
    sequenced short long Style.noConfusion Style.noConfusion, ?_, ?_⟩
  · intro steady
    exact ⟨lengthened short Style.noConfusion steady, lengthened long Style.noConfusion steady⟩
  · intro common
    exact Imitation.embellishing.alike ordinary ornate moving unassigned common
      fun p q likened => Performance.eq_of_forall₂_eq likened.duration likened.events

/-- One player of each built-in style. -/
def quartet : Registry :=
  ⟨[("default", .builtIn .literal), ("staccato", .builtIn (.staccato (2 / 3) (by decide +kernel))),
    ("legato", .builtIn (.legato (5 / 4) (by decide +kernel))), ("fancy", .builtIn .fancy)]⟩

def leader [Limits] : Engaged .literal := ⟨quartet, .text "default", rfl⟩

def plucker [Limits] : Engaged
    (.staccato (2 / 3) (by decide +kernel)) := ⟨quartet, .text "staccato", rfl⟩

def singer [Limits] : Engaged
    (.legato (5 / 4) (by decide +kernel)) := ⟨quartet, .text "legato", rfl⟩

def ornamenter [Limits] : Engaged .fancy := ⟨quartet, .text "fancy", rfl⟩

/-- An accented note before a third of two tempos, all detached. -/
def detachedThird : Music :=
  modified (.phrase [.accent (.nearest (1 / 2)), .staccato (.nearest (3 / 4))])
    (sequential (quarter .c)
      (parallel (quarter .e) (modified (.tempo ⟨2, by decide +kernel⟩) (quarter .g))))

open Usual

theorem detachedThird_sequenced :
    (0 : Rat) < 3 / 2 ∧ (∀ name, .player name ∉ detachedThird.modifiers) ∧
      (∀ shaping ∈ detachedThird.attributes, shaping.tempoChange? = none) ∧
      (∀ shaping ∈ detachedThird.attributes, shaping.isCommon = true) ∧
      ∃ p q, (Operand.music detachedThird).perform quartet { tempo := 3 / 2 } = .ok p ∧
        (Operand.music detachedThird).perform quartet
          { tempo := 3 / 2, player := .text "staccato" } = .ok q ∧
        p.SameSequence q ∧ q = p.lengthened (2 / 3) ∧
        (Operand.music detachedThird).perform quartet
          { tempo := 3 / 2, player := .text "legato" } = .ok (p.lengthened (5 / 4)) ∧
        (Operand.music detachedThird).perform quartet
          { tempo := 3 / 2, player := .text "fancy" } = .ok p := by
  have moving : (0 : Rat) < 3 / 2 := by decide +kernel
  have unassigned : ∀ name, .player name ∉ detachedThird.modifiers := by
    simp [detachedThird, quarter]
  have steady : ∀ shaping ∈ detachedThird.attributes, shaping.tempoChange? = none := by decide
  have common : ∀ shaping ∈ detachedThird.attributes, shaping.isCommon = true := by decide
  obtain ⟨p, performed⟩ := exists_of_isOk (show
    ((Operand.music detachedThird).perform quartet { tempo := 3 / 2 }).isOk = true by
      decide +kernel)
  obtain ⟨⟨-, short⟩, -, -, lengthened, embellished⟩ := players_keep_sequencing
    (c := { tempo := 3 / 2 }) leader plucker singer ornamenter detachedThird moving unassigned
  obtain ⟨q, plucked, sequenced⟩ := short.exists_ok performed
  obtain ⟨⟨-, detached⟩, -, sung⟩ := lengthened steady
  obtain ⟨q', plucked', shorter⟩ := detached.exists_ok performed
  obtain ⟨r, overlapping, rfl⟩ := sung.exists_ok performed
  obtain ⟨r', embellished, rfl⟩ := (embellished common).2.exists_ok performed
  have same : q = q' := Except.ok.inj (plucked.symm.trans plucked')
  exact ⟨moving, unassigned, steady, common, p, q, performed, plucked, sequenced,
    same.trans shorter, overlapping, embellished⟩

end Music

end MusicAlgebra
