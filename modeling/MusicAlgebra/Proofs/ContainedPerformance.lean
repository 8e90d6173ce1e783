import MusicAlgebra.Proofs.ContainedEvents
import MusicAlgebra.Proofs.PlayablePerformance

/-!
# Performances without overhang

A passage rings past the moment at which the next one enters only if something asks for it: a player
that lets notes overlap, or an attribute that lengthens them.  Without either, every event lies
within the time of its performance, through chains, nested phrases and changes of tempo.  Then no
change of tempo has to hold an event either.
-/

namespace MusicAlgebra

open Outcome Event

variable {start : Rat} {events : List Event} {players : Registry} {c inside : Context}

/-! ## What asks for overhang -/

/-- An attribute that lets no note sound for longer than it did. -/
def Attribute.NoOverhang : Attribute → Prop
  | staccato fraction | legato fraction | slurred fraction => fraction.val ≤ 1
  | _ => True

instance (shaping : Attribute) : Decidable shaping.NoOverhang := by
  cases shaping <;> unfold Attribute.NoOverhang <;> infer_instance

/-- Every built-in style but the legato one, which alone lets notes overlap. -/
def Style.NoOverhang : Style → Prop
  | legato .. => False
  | _ => True

theorem Style.NoOverhang.lengthFactor_le_one {style : Style} (short : style.NoOverhang) :
    style.lengthFactor ≤ 1 := by
  cases style with
  | literal | fancy => exact le_rfl
  | staccato fraction within => exact within.2
  | legato overlap one_le => exact short.elim

def Registry.NoOverhang [Limits] (players : Registry) : Prop :=
  ∀ name player, players.resolve name = .ok player → ∃ style, player = .builtIn style ∧
    style.NoOverhang

theorem Registry.NoOverhang.builtIn [Limits] (short : players.NoOverhang) : players.BuiltIn := by
  intro name player resolved
  obtain ⟨style, builtIn, -⟩ := short name player resolved
  exact ⟨style, builtIn⟩

theorem Registry.noOverhang_of_entries [Limits]
    (each : ∀ entry ∈ players.entries, ∃ style, entry.2 = .builtIn style ∧ style.NoOverhang) :
    players.NoOverhang := by
  intro name player resolved
  obtain ⟨text, member⟩ := exists_entry_of_resolve resolved
  exact each (text, player) member

/-- Music in which no attribute of any phrase lets notes sound for longer. -/
def Music.NoOverhang : Music → Prop
  | note _ | rest _ => True
  | sequential left right | parallel left right => left.NoOverhang ∧ right.NoOverhang
  | modified (.phrase attributes) inner =>
      (∀ shaping ∈ attributes, shaping.NoOverhang) ∧ inner.NoOverhang
  | modified _ inner => inner.NoOverhang

theorem Music.NoOverhang.inner {modifier : Modifier} {inner : Music}
    (short : (modified modifier inner).NoOverhang) : inner.NoOverhang := by
  cases modifier with
  | phrase attributes => exact short.2
  | _ => exact short

/-! ## Styles -/

namespace Style

theorem inside_of_playNote {style : Style} (short : style.NoOverhang) {n : Note} {e : Event}
    (moving : 0 < c.tempo) (played : style.playNote n c = .ok e) :
    e.Inside ⟨c.startTime, n.length.val / c.tempo⟩ := by
  obtain ⟨written, denoted, played⟩ := bind_eq_ok.1 played
  cases played
  apply Inside.shortened _ style.lengthFactor_nonneg short.lengthFactor_le_one
  rw [Context.literalEvent, Context.scale_of_pos moving, ok_bind] at denoted
  obtain ⟨volume, -, denoted⟩ := bind_eq_ok.1 denoted
  cases denoted
  constructor
  · exact le_rfl
  · exact div_nonneg n.length.nonneg moving.le
  · exact le_rfl

variable {s span : Span} {shaping : Attribute}

theorem allInside_reweigh (inside : AllInside s events) (weight : Event → Rat) :
    AllInside s (reweigh weight events) := by
  apply inside.map
  intro e inside
  exact inside.recoloured _ _

theorem allInside_rescale (inside : AllInside s events) {fraction : Amount}
    (short : fraction.val ≤ 1) : AllInside s (rescale fraction.val events) := by
  apply inside.map
  intro e inside
  exact inside.shortened fraction.nonneg short

theorem allInside_interpretCommon (inside : AllInside s events) (short : shaping.NoOverhang) :
    AllInside s (interpretCommon events shaping) := by
  cases shaping with
  | accent factor => exact allInside_reweigh inside _
  | staccato fraction | legato fraction => exact allInside_rescale inside short
  | _ => exact inside

theorem allInside_of_interpretFancy [Limits] {key : Key} {shaped : List Event}
    (inside : AllInside s events)
    (short : shaping.NoOverhang)
    (interpreted : interpretFancy events shaping key span = .ok shaped) : AllInside s shaped := by
  cases shaping with
  | trill speed =>
      rw [interpretFancy] at interpreted
      cases trilled : trillAll events key speed with
      | error excess =>
          rw [trilled] at interpreted
          cases interpreted
      | ok pieces =>
          rw [trilled] at interpreted
          cases interpreted
          exact inside.trillAll trilled
  | crescendo amount | diminuendo amount =>
      cases interpreted
      exact allInside_reweigh inside _
  | slurred fraction =>
      cases interpreted
      exact inside.slur fraction.nonneg short
  | pedal =>
      cases interpreted
      exact inside.pedal
  | mordent | invertedMordent | doubleMordent =>
      cases interpreted
      exact inside.mordents _ _
  | arpeggioUp | arpeggioDown =>
      cases interpreted
      exact inside.arpeggio _
  | diatonicTranspose degrees =>
      cases interpreted
      apply inside.map
      intro e inside
      exact inside.recoloured _ _
  | _ =>
      cases interpreted
      exact allInside_interpretCommon inside short

theorem allInside_of_interpretPhrase [Limits] {style : Style} {shaped : List Event}
    (inside : AllInside s events) (short : shaping.NoOverhang)
    (interpreted : style.interpretPhrase events shaping c span = .ok shaped) :
    AllInside s shaped := by
  cases style with
  | fancy => exact allInside_of_interpretFancy inside short interpreted
  | _ =>
      cases interpreted
      exact allInside_interpretCommon inside short

end Style

/-! ## Phrases -/

/-- By how much an attribute changes the tempo in the course of its phrase. -/
def Attribute.tempoChange? : Attribute → Option Rat
  | ritardando amount => some amount.val
  | accelerando amount _ => some (-amount.val)
  | _ => none

theorem Attribute.slow_of_tempoChange? {shaping : Attribute} {amount : Rat}
    (change : shaping.tempoChange? = some amount) : -(1 / 2) ≤ amount := by
  cases shaping with
  | ritardando amount =>
      cases change
      exact (by norm_num : -(1 / 2 : Rat) ≤ 0).trans amount.nonneg
  | accelerando amount le_half =>
      cases change
      exact neg_le_neg le_half
  | _ => cases change

namespace Performance

/-- A performance that begins at a moment and whose events are over when it is. -/
def ContainedFrom (start : Rat) (p : Performance) : Prop := AllInside ⟨start, p.duration⟩ p.events

variable {style : Style} {p q : Performance}

/-- One attribute keeps a phrase contained, also where it moves the end of the phrase. -/
theorem ContainedFrom.shape [Limits] {shaping : Attribute} (contained : p.ContainedFrom c.startTime)
    (short : shaping.NoOverhang) (shaped : p.shape (.builtIn style) c shaping = .ok q) :
    q.ContainedFrom c.startTime := by
  cases shaping with
  | loudness volume | dynamic standard =>
      cases shaped
      exact contained
  | ritardando amount =>
      cases shaped
      apply contained.map
      intro e inside
      exact inside.stretched (@Attribute.slow_of_tempoChange? (.ritardando amount) _ rfl)
  | accelerando amount le_half =>
      cases shaped
      apply contained.map
      intro e inside
      rw [sub_eq_add_neg]
      exact inside.stretched (@Attribute.slow_of_tempoChange? (.accelerando amount le_half) _ rfl)
  | _ =>
      obtain ⟨events, interpreted, shaped⟩ := bind_eq_ok.1 shaped
      cases shaped
      exact Style.allInside_of_interpretPhrase contained short interpreted

/-- And so do any attributes in any order. -/
theorem ContainedFrom.foldlM_shape [Limits] {attributes : List Attribute}
    (contained : p.ContainedFrom c.startTime)
    (short : ∀ shaping ∈ attributes, shaping.NoOverhang)
    (run : attributes.foldlM (Performance.shape (.builtIn style) c) p = .ok q) :
    q.ContainedFrom c.startTime := by
  apply foldlM_invariant_of_mem _ contained run
  intro before shaping member after contained shaped
  exact contained.shape (short shaping member) shaped

theorem ContainedFrom.shapeAll [Limits] {attributes : List Attribute}
    (contained : p.ContainedFrom c.startTime)
    (short : ∀ shaping ∈ attributes, shaping.NoOverhang)
    (shaped : p.shapeAll (.builtIn style) c attributes = .ok q) :
    q.ContainedFrom c.startTime := by
  obtain ⟨unsorted, run, shaped⟩ := bind_eq_ok.1 shaped
  cases shaped
  exact (contained.foldlM_shape short run).sort

end Performance

/-! ## Scores -/

namespace Music

open Performance

theorem allInside_of_performPairwise [Limits] (shortPlayers : players.NoOverhang) {m : Music}
    (short : m.NoOverhang) (moving : 0 < c.tempo) {passage : List Event}
    (read : m.performPairwise players c = .ok passage) :
    AllInside ⟨c.startTime, m.duration.val / c.tempo⟩ passage := by
  induction m generalizing c passage with
  | note n =>
      obtain ⟨player, resolved, read⟩ := bind_eq_ok.1 read
      obtain ⟨style, rfl, shortStyle⟩ := shortPlayers c.player player resolved
      obtain ⟨sounded, played, rfl⟩ := map_eq_ok.1 read
      intro e member
      rw [List.mem_singleton.1 member, duration_note]
      exact Style.inside_of_playNote shortStyle moving played
  | rest length =>
      cases read
      intro e member
      cases member
  | sequential left right leftIH rightIH =>
      obtain ⟨first, firstRead, read⟩ := bind_eq_ok.1 read
      obtain ⟨second, secondRead, read⟩ := bind_eq_ok.1 read
      cases read
      have before := leftIH short.1 moving firstRead
      have after := rightIH short.2 (c := { c with
        startTime := c.startTime + left.duration.val / c.tempo }) moving secondRead
      rw [duration_sequential, Amount.val_add, add_div]
      apply AllInside.sort
      apply AllInside.append
      · apply before.widen
        · exact le_rfl
        · simp only [Span.finish, ← add_assoc]
          exact le_add_of_nonneg_right (div_nonneg right.duration.nonneg moving.le)
      · apply after.widen
        · exact le_add_of_nonneg_right (div_nonneg left.duration.nonneg moving.le)
        · simp only [Span.finish, ← add_assoc, le_refl]
  | parallel left right leftIH rightIH =>
      obtain ⟨first, firstRead, read⟩ := bind_eq_ok.1 read
      obtain ⟨second, secondRead, read⟩ := bind_eq_ok.1 read
      cases read
      rw [duration_parallel, Amount.val_max, ← max_def, ← max_div_div_right moving.le]
      apply AllInside.sort
      apply AllInside.append
      · apply (leftIH short.1 moving firstRead).widen
        · exact le_rfl
        · exact add_le_add_right (le_max_left _ _) _
      · apply (rightIH short.2 moving secondRead).widen
        · exact le_rfl
        · exact add_le_add_right (le_max_right _ _) _
  | modified modifier inner ih =>
      by_cases phrased : ∃ attributes, modifier = .phrase attributes
      · obtain ⟨attributes, rfl⟩ := phrased
        obtain ⟨unshaped, innerRead, read⟩ := bind_eq_ok.1 read
        obtain ⟨player, resolved, read⟩ := bind_eq_ok.1 read
        obtain ⟨style, rfl, -⟩ := shortPlayers _ player resolved
        obtain ⟨p, shaped, rfl⟩ := map_eq_ok.1 read
        have passage := ih short.2 (by rwa [Context.withLoudness_tempo]) innerRead
        have contained := ContainedFrom.shapeAll (p := ⟨unshaped, _⟩) passage short.1 shaped
        have lasted := shapeAll_duration shaped
        rw [Context.withLoudness_tempo] at lasted
        rw [ContainedFrom, lasted, Context.withLoudness_startTime] at contained
        rwa [duration_modified, Modifier.outward, Amount.val_times, mul_div_right_comm]
      · rw [performPairwise_modified players inner c (not_exists.1 phrased)] at read
        obtain ⟨inside, derived, read⟩ := bind_eq_ok.1 read
        rw [duration_modified, Context.outward_div_tempo derived, ← Context.under_startTime derived]
        exact ih short.inner (Context.under_tempo_pos derived moving) read

theorem containedFrom_of_perform [Limits] (shortPlayers : players.NoOverhang) {m : Music}
    (short : m.NoOverhang) (moving : 0 < c.tempo) {p : Performance}
    (performed : m.perform players c = .ok p) : p.ContainedFrom c.startTime := by
  obtain ⟨read, lasted⟩ :=
    (perform_eq_ok_iff shortPlayers.builtIn.playsInOrder moving).1 performed
  rw [ContainedFrom, lasted]
  exact allInside_of_performPairwise shortPlayers short moving read

/-! ## Changes of tempo -/

/-- The changes of tempo that take place while music is performed: in its phrases, wherever they
stand, `e` is moved by `amount` within the span `s` that the phrase has by then. -/
inductive Stretches [Limits] (players : Registry) :
    Music → Context → Span → Rat → Event → Prop where
  | first {left right : Music} {c : Context} {s : Span} {amount : Rat} {e : Event}
      (stretched : Stretches players left c s amount e) :
      Stretches players (sequential left right) c s amount e
  | second {left right : Music} {c : Context} {s : Span} {amount : Rat} {e : Event}
      {p : Performance} (performed : left.perform players c = .ok p)
      (stretched : Stretches players right { c with startTime := c.startTime + p.duration }
        s amount e) :
      Stretches players (sequential left right) c s amount e
  | left {left right : Music} {c : Context} {s : Span} {amount : Rat} {e : Event}
      (stretched : Stretches players left c s amount e) :
      Stretches players (parallel left right) c s amount e
  | right {left right : Music} {c : Context} {s : Span} {amount : Rat} {e : Event}
      (stretched : Stretches players right c s amount e) :
      Stretches players (parallel left right) c s amount e
  | under {modifier : Modifier} {inner : Music} {c inside : Context} {s : Span} {amount : Rat}
      {e : Event} (derived : c.under players modifier = .ok inside)
      (stretched : Stretches players inner inside s amount e) :
      Stretches players (modified modifier inner) c s amount e
  | within {attributes : List Attribute} {inner : Music} {c : Context} {s : Span} {amount : Rat}
      {e : Event} (stretched : Stretches players inner (c.withLoudness attributes) s amount e) :
      Stretches players (modified (.phrase attributes) inner) c s amount e
  | phrase {before after : List Attribute} {shaping : Attribute} {inner : Music} {c : Context}
      {player : Player} {p q : Performance} {amount : Rat} {e : Event}
      (performed : inner.perform players (c.withLoudness (before ++ shaping :: after)) = .ok p)
      (resolved :
        players.resolve (c.withLoudness (before ++ shaping :: after)).player = .ok player)
      (shaped : before.foldlM (shape player (c.withLoudness (before ++ shaping :: after))) p =
        .ok q)
      (change : shaping.tempoChange? = some amount) (member : e ∈ q.events) :
      Stretches players (modified (.phrase (before ++ shaping :: after)) inner) c
        ⟨c.startTime, q.duration⟩ amount e

/-- Without overhang a change of tempo finds every event within the phrase. -/
theorem inside_of_stretches [Limits] (shortPlayers : players.NoOverhang) {m : Music}
    (short : m.NoOverhang)
    (moving : 0 < c.tempo) {s : Span} {amount : Rat} {e : Event}
    (stretched : Stretches players m c s amount e) : e.Inside s ∧ -(1 / 2) ≤ amount := by
  induction stretched with
  | first _ ih | left _ ih => exact ih short.1 moving
  | second _ _ ih => exact ih short.2 moving
  | right _ ih => exact ih short.2 moving
  | under derived _ ih => exact ih short.inner (Context.under_tempo_pos derived moving)
  | within _ ih => exact ih short.2 (by rwa [Context.withLoudness_tempo])
  | @phrase before after shaping inner c player p q amount e performed resolved shaped change
      member =>
      obtain ⟨style, rfl, -⟩ := shortPlayers _ player resolved
      have contained : p.ContainedFrom _ :=
        containedFrom_of_perform shortPlayers short.2 (by rwa [Context.withLoudness_tempo])
          performed
      have shortBefore : ∀ shaping ∈ before, shaping.NoOverhang := by
        intro shaping member
        exact short.1 shaping (List.mem_append_left _ member)
      have reached := contained.foldlM_shape shortBefore shaped
      rw [Context.withLoudness_startTime] at reached
      exact ⟨reached e member, Attribute.slow_of_tempoChange? change⟩

/-- No passage rings past its time unless something asks for it.  Without players that overlap and
attributes that lengthen, all events of a performance begin and end within it, and a change of tempo
never has to hold one: it moves events as it would if it held none. -/
theorem perform_contained [Limits] (shortPlayers : players.NoOverhang) {m : Music}
    (short : m.NoOverhang)
    (moving : 0 < c.tempo) :
    (∀ p, m.perform players c = .ok p →
      ∀ e ∈ p.events, c.startTime ≤ e.onset ∧ e.onset + e.duration ≤ c.startTime + p.duration) ∧
      (∀ p, (Operand.music m).perform players c = .ok p →
        ∀ e ∈ p.events, c.startTime ≤ e.onset ∧ e.onset + e.duration ≤ c.startTime + p.duration) ∧
      ∀ s amount e, Stretches players m c s amount e →
        0 ≤ s.offsetFactor amount e ∧ 0 ≤ s.lengthFactor amount e ∧
          s.stretch amount e = s.stretchFreely amount e := by
  have performed : ∀ p, m.perform players c = .ok p →
      ∀ e ∈ p.events, c.startTime ≤ e.onset ∧
        e.onset + e.duration ≤ c.startTime + p.duration := by
    intro p performed e member
    have inside := containedFrom_of_perform shortPlayers short moving performed e member
    exact ⟨inside.begins, inside.ends⟩
  refine ⟨performed, ?_, ?_⟩
  · intro p played
    obtain ⟨q, played, granted⟩ := bind_eq_ok.1 played
    rw [granted_eq_ok] at granted
    exact granted.1 ▸ performed q played
  · intro s amount e stretched
    obtain ⟨inside, slow⟩ := inside_of_stretches shortPlayers short moving stretched
    have offset := inside.offsetFactor_nonneg slow
    have length := inside.lengthFactor_nonneg slow
    exact ⟨offset, length, Span.stretch_eq_freely offset length⟩

/-- A fancy player beside a short-winded one. -/
def nimblePlayers : Registry :=
  ⟨[("default", .builtIn .fancy), ("plucked", .builtIn (.staccato (1 / 2) (by decide +kernel)))]⟩

theorem nimblePlayers_noOverhang [Limits] : nimblePlayers.NoOverhang := by
  apply Registry.noOverhang_of_entries
  intro entry member
  simp only [nimblePlayers, List.mem_cons, List.not_mem_nil, or_false] at member
  rcases member with rfl | rfl
  · exact ⟨_, rfl, trivial⟩
  · exact ⟨_, rfl, trivial⟩

/-- A trill two and a half notes of which fit into a quarter. -/
def tenths : Attribute := .trill (.byLength ⟨1 / 10, by decide +kernel⟩)

theorem hurry_le_half : (Amount.nearest (1 / 2)).val ≤ 1 / 2 := by decide +kernel

/-- As much hurry as is allowed. -/
def hurry : Attribute := .accelerando (.nearest (1 / 2)) hurry_le_half

def hurriedTrill : Music := modified (.phrase [tenths, hurry]) (quarter .c)

/-- The trill before it is hurried. -/
def evenTrill : Performance :=
  ⟨[⟨0, 1 / 10, 60, 100, "acoustic_grand_piano"⟩, ⟨1 / 10, 1 / 10, 62, 100, "acoustic_grand_piano"⟩,
    ⟨1 / 5, 1 / 20, 60, 100, "acoustic_grand_piano"⟩], 1 / 4⟩

/-- The last note of the trill ends with the phrase. -/
def playedTrill : Performance :=
  ⟨[⟨0, 2 / 25, 60, 100, "acoustic_grand_piano"⟩, ⟨2 / 25, 1 / 25, 62, 100, "acoustic_grand_piano"⟩,
    ⟨3 / 25, 1 / 200, 60, 100, "acoustic_grand_piano"⟩], 1 / 8⟩

open Usual

theorem hurriedTrill_contained :
    nimblePlayers.NoOverhang ∧ hurriedTrill.NoOverhang ∧ 0 < ({} : Context).tempo ∧
      hurriedTrill.perform nimblePlayers {} = .ok playedTrill ∧
      (∀ e ∈ playedTrill.events, 0 ≤ e.onset ∧ e.onset + e.duration ≤ 0 + 1 / 8) ∧
      ∀ e ∈ evenTrill.events, Stretches nimblePlayers hurriedTrill {} ⟨0, 1 / 4⟩ (-(1 / 2)) e ∧
        (⟨0, 1 / 4⟩ : Span).stretch (-(1 / 2)) e =
          (⟨0, 1 / 4⟩ : Span).stretchFreely (-(1 / 2)) e := by
  have moving : 0 < ({} : Context).tempo := by decide +kernel
  have short : hurriedTrill.NoOverhang := by
    constructor
    · decide
    · trivial
  have unchanged : ({} : Context).withLoudness [tenths, hurry] = {} := rfl
  have sounded : (quarter .c).perform nimblePlayers {} =
      .ok ⟨[⟨0, 1 / 4, 60, 100, "acoustic_grand_piano"⟩], 1 / 4⟩ := by
    apply eq_ok_of_toOption
    decide +kernel
  have player : nimblePlayers.resolve (.text "default") = .ok (.builtIn .fancy) := rfl
  have trilled : [tenths].foldlM (shape (.builtIn .fancy) {})
      ⟨[⟨0, 1 / 4, 60, 100, "acoustic_grand_piano"⟩], 1 / 4⟩ = .ok evenTrill := by
    apply eq_ok_of_toOption
    decide +kernel
  have shaped : [tenths, hurry].foldlM (shape (.builtIn .fancy) {})
      ⟨[⟨0, 1 / 4, 60, 100, "acoustic_grand_piano"⟩], 1 / 4⟩ = .ok playedTrill := by
    apply eq_ok_of_toOption
    decide +kernel
  have sorted : Event.sort playedTrill.events = playedTrill.events := by
    apply sort_of_inOrder
    decide +kernel
  have performed : hurriedTrill.perform nimblePlayers {} = .ok playedTrill := by
    rw [hurriedTrill, perform_phrase, unchanged]
    dsimp only
    rw [sounded, ok_bind, player, ok_bind, shapeAll, shaped, ok_bind, sorted]
    rfl
  have contained := perform_contained nimblePlayers_noOverhang short moving
  refine ⟨nimblePlayers_noOverhang, short, moving, performed, contained.1 playedTrill performed, ?_⟩
  intro e member
  have stretched : Stretches nimblePlayers hurriedTrill {} ⟨0, 1 / 4⟩ (-(1 / 2)) e :=
    @Stretches.phrase _ _ [tenths] [] _ _ _ _ _ _ _ _ sounded player trilled (by decide +kernel)
      member
  exact ⟨stretched, (contained.2.2 _ _ e stretched).2.2⟩

end Music

end MusicAlgebra
