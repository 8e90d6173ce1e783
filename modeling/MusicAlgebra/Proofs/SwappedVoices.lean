import MusicAlgebra.Proofs.Comparison
import MusicAlgebra.Proofs.PairwiseReading
import MusicAlgebra.Proofs.PlayablePerformance
import MusicAlgebra.Proofs.Rearrangement
import MusicAlgebra.Proofs.ScoreContents

/-!
# Swapped voices

Parallel composition is commutative but for the order of simultaneous events: the left operand wins
every tie.  That order is visible to whoever looks at a whole phrase, so it must be shown that no
attribute does, except for the arpeggios, which roll a chord in the order of its notes where these
have one pitch.  Slurs and pedals look at the latest of some moments, trills fail with some event or
with none, and all other attributes treat each event for itself.
-/

namespace MusicAlgebra

open Outcome

/-- A traversal in another order has the same results, or fails as well. -/
theorem Outcome.agree_mapM {ε α β : Type} {f : α → Except ε β} {items others : List α}
    (reordered : items.Perm others) :
    Agree (fun _ _ => True) List.Perm (items.mapM f) (others.mapM f) := by
  induction reordered with
  | nil => exact .succeeded (.refl _)
  | cons item _ ih =>
      rw [List.mapM_cons, List.mapM_cons]
      cases f item with
      | error failure => exact .failed trivial
      | ok result => exact ih.bind fun results results' same => .succeeded (same.cons result)
  | swap first second items =>
      simp only [List.mapM_cons]
      cases f first with
      | error failure => cases f second <;> exact .failed trivial
      | ok a =>
          cases f second with
          | error failure => exact .failed trivial
          | ok b =>
              cases items.mapM f with
              | error failure => exact .failed trivial
              | ok results => exact .succeeded (.swap a b results)
  | trans _ _ firstIH secondIH =>
      exact firstIH.trans (fun _ _ => trivial) (fun first second => first.trans second) secondIH

/-! ## Effects on events in another order -/

namespace Event

variable {events others : List Event}

/-- The latest of the moments that belong to some events, none if there are no events. -/
theorem max?_moments (moment : Event → Rat) (first : Event) (events : List Event) :
    ((first :: events).map moment).max? =
      some (events.foldl (fun latest e => Performance.later latest (moment e)) (moment first)) := by
  rw [List.map_cons, List.max?_cons', List.foldl_map]
  simp only [Performance.later_eq_max]

theorem max?_perm {moments reordered : List Rat} (same : moments.Perm reordered) :
    moments.max? = reordered.max? := by
  cases latest : moments.max? with
  | none =>
      rw [List.max?_eq_none_iff] at latest
      subst latest
      rw [List.nil_perm.1 same]
      rfl
  | some moment =>
      obtain ⟨member, bounds⟩ := List.max?_eq_some_iff.1 latest
      exact (List.max?_eq_some_iff.2
        ⟨same.mem_iff.1 member, fun other otherMem => bounds other (same.mem_iff.2 otherMem)⟩).symm

theorem lastOnset?_eq_max? (events : List Event) :
    lastOnset? events = (events.map Event.onset).max? := by
  cases events with
  | nil => rfl
  | cons first others => exact (max?_moments Event.onset first others).symm

theorem endTime_eq_max? (events : List Event) (duration : Rat) :
    (Performance.mk events duration).endTime = ((events.map Event.finish).max?).getD 0 := by
  cases events with
  | nil => rfl
  | cons first others =>
      rw [max?_moments Event.finish first others]
      rfl

theorem slur_perm (same : events.Perm others) (fraction : Rat) :
    (slur events fraction).Perm (slur others fraction) := by
  have last : lastOnset? events = lastOnset? others := by
    rw [lastOnset?_eq_max?, lastOnset?_eq_max?, max?_perm (same.map Event.onset)]
  rw [slur, slur, last]
  cases lastOnset? others with
  | none => exact same
  | some last => exact same.map _

theorem pedal_eq_map (events : List Event) :
    pedal events = events.map fun e =>
      { e with duration := (Performance.mk events 0).endTime - e.onset } := by
  cases events <;> rfl

theorem pedal_perm (same : events.Perm others) : (pedal events).Perm (pedal others) := by
  rw [pedal_eq_map, pedal_eq_map, endTime_eq_max?, endTime_eq_max?,
    max?_perm (same.map Event.finish)]
  exact same.map _

theorem agree_trillAll [Limits] (same : events.Perm others) (key : Key) (speed : TrillSpeed) :
    Agree (fun _ _ => True) List.Perm (trillAll events key speed) (trillAll others key speed) :=
  (agree_mapM same).map fun _ _ trilled => trilled.flatten

end Event

/-- Whether an attribute rolls the chords of its phrase. -/
def Attribute.rolls : Attribute → Bool
  | arpeggioUp | arpeggioDown => true
  | _ => false

namespace Style

variable {events others : List Event}

theorem interpretCommon_perm (same : events.Perm others) (shaping : Attribute) :
    (interpretCommon events shaping).Perm (interpretCommon others shaping) := by
  cases shaping with
  | accent factor | staccato fraction | legato fraction => exact same.map _
  | _ => exact same

theorem agree_interpretFancy [Limits] (same : events.Perm others) {shaping : Attribute}
    (unrolled : shaping.rolls = false) (key : Key) (span : Span) :
    Agree (fun _ _ => True) List.Perm (interpretFancy events shaping key span)
      (interpretFancy others shaping key span) := by
  cases shaping with
  | arpeggioUp | arpeggioDown => cases unrolled
  | crescendo amount | diminuendo amount le_one | diatonicTranspose degrees =>
      exact .succeeded (same.map _)
  | slurred fraction => exact .succeeded (Event.slur_perm same fraction.val)
  | pedal => exact .succeeded (Event.pedal_perm same)
  | trill speed => exact (Event.agree_trillAll same key speed).mapError fun _ _ _ => trivial
  | mordent | invertedMordent | doubleMordent => exact .succeeded (same.flatMap_right _)
  | _ => exact .succeeded (interpretCommon_perm same _)

theorem agree_interpretPhrase [Limits] (style : Style) (same : events.Perm others)
    {shaping : Attribute}
    (unrolled : shaping.rolls = false) (c : Context) (span : Span) :
    Agree (fun _ _ => True) List.Perm (style.interpretPhrase events shaping c span)
      (style.interpretPhrase others shaping c span) := by
  cases style with
  | fancy => exact agree_interpretFancy same unrolled c.key span
  | _ => exact .succeeded (interpretCommon_perm same shaping)

end Style

/-! ## Scores -/

/-- The same events in any order. -/
def reordering : Comparison where
  related := List.Perm
  merge first second := (List.merge_perm_append _).trans
    ((first.append second).trans (List.merge_perm_append _).symm)
  sort same := (List.mergeSort_perm _ _).trans (same.trans (List.mergeSort_perm _ _).symm)

theorem Performance.agree_shape_reordered [Limits] (style : Style) {shaping : Attribute}
    (unrolled : shaping.rolls = false) (c : Context) {p q : Performance}
    (same : reordering.Likened p q) :
    Agree (fun _ _ => True) reordering.Likened (p.shape (.builtIn style) c shaping)
      (q.shape (.builtIn style) c shaping) := by
  have lasting := same.duration
  cases shaping with
  | loudness volume | dynamic standard => exact .succeeded same
  | ritardando amount | accelerando amount le_half =>
      simp only [shape, lasting]
      exact .succeeded ⟨same.events.map _, rfl⟩
  | _ =>
      simp only [shape, lasting]
      apply (style.agree_interpretPhrase same.events unrolled c _).bind
      intro events others reordered
      exact .succeeded ⟨reordered, rfl⟩

namespace Music

variable {players : Registry} {c : Context} {m n : Music}

/-- Two voices in parallel, and the same voices the other way round. -/
inductive Commutes : Music → Music → Prop where
  | swapped (left right : Music) : Commutes (parallel left right) (parallel right left)

/-- A law that keeps the attributes of a score keeps them wherever it is used. -/
theorem Rearranged.mem_attributes {law : Music → Music → Prop}
    (kept : ∀ m n, law m n → ∀ shaping, shaping ∈ m.attributes ↔ shaping ∈ n.attributes)
    (rearranged : Rearranged law m n) (shaping : Attribute) :
    shaping ∈ m.attributes ↔ shaping ∈ n.attributes := by
  induction rearranged with
  | here applied => exact kept _ _ applied shaping
  | refl m => exact Iff.rfl
  | symm _ ih => exact ih.symm
  | trans _ _ firstIH secondIH => exact firstIH.trans secondIH
  | sequential _ _ leftIH rightIH | parallel _ _ leftIH rightIH =>
      simp only [attributes_sequential, attributes_parallel, List.mem_append, leftIH, rightIH]
  | modified modifier _ ih => simp only [attributes_modified, List.mem_append, ih]

theorem Commutes.mem_attributes (m n : Music) (swapped : Commutes m n) (shaping : Attribute) :
    shaping ∈ m.attributes ↔ shaping ∈ n.attributes := by
  cases swapped with
  | swapped left right => simp only [attributes_parallel, List.mem_append, or_comm]

/-- Two scores that last equally long and are performed by the same events under every positive
tempo. -/
structure Reordered [Limits] (players : Registry) (m n : Music) : Prop where
  lasting : m.duration = n.duration
  performed : ∀ c, 0 < c.tempo →
    Agree (fun _ _ => True) reordering.Likened (m.perform players c) (n.perform players c)

namespace Reordered

theorem refl [Limits] (m : Music) : Reordered players m m := by
  constructor
  · rfl
  · intro c moving
    exact .refl (fun _ => trivial) fun p => ⟨.refl _, rfl⟩

theorem symm [Limits] (reordered : Reordered players m n) : Reordered players n m := by
  constructor
  · exact reordered.lasting.symm
  · intro c moving
    exact (reordered.performed c moving).symm (fun _ => trivial)
      fun alike => ⟨alike.events.symm, alike.duration.symm⟩

theorem trans [Limits] {o : Music} (first : Reordered players m n)
    (second : Reordered players n o) :
    Reordered players m o := by
  constructor
  · exact first.lasting.trans second.lasting
  · intro c moving
    exact (first.performed c moving).trans (fun _ _ => trivial)
      (fun alike more => ⟨alike.events.trans more.events, alike.duration.trans more.duration⟩)
      (second.performed c moving)

theorem sequential [Limits] {left left' right right' : Music} (first : Reordered players left left')
    (second : Reordered players right right') :
    Reordered players (sequential left right) (sequential left' right') := by
  have lasting : (Music.sequential left right).duration =
      (Music.sequential left' right').duration := by
    rw [duration_sequential, duration_sequential, first.lasting, second.lasting]
  constructor
  · exact lasting
  · intro c moving
    rw [perform_sequential_pair players left right moving,
      perform_sequential_pair players left' right' moving, lasting, first.lasting]
    have entered := second.performed
      { c with startTime := c.startTime + left'.duration.val / c.tempo } moving
    exact Comparison.joined (first.performed c moving) entered _

theorem parallel [Limits] {left left' right right' : Music} (first : Reordered players left left')
    (second : Reordered players right right') :
    Reordered players (parallel left right) (parallel left' right') := by
  have lasting : (Music.parallel left right).duration =
      (Music.parallel left' right').duration := by
    rw [duration_parallel, duration_parallel, first.lasting, second.lasting]
  constructor
  · exact lasting
  · intro c moving
    rw [perform_parallel_pair players left right moving,
      perform_parallel_pair players left' right' moving, lasting]
    exact Comparison.joined (first.performed c moving) (second.performed c moving) _

/-- The merged streams of two voices hold the same events, whichever comes first. -/
theorem swapped [Limits] (players : Registry) (left right : Music) :
    Reordered players (.parallel left right) (.parallel right left) := by
  have lasting : (Music.parallel left right).duration = (Music.parallel right left).duration := by
    ext
    simp only [duration_parallel, Amount.val_max]
    grind
  constructor
  · exact lasting
  · intro c moving
    rw [perform_parallel_pair players left right moving,
      perform_parallel_pair players right left moving, lasting]
    cases left.perform players c with
    | error failure => cases right.perform players c <;> exact .failed trivial
    | ok first =>
        cases right.perform players c with
        | error failure => exact .failed trivial
        | ok second =>
            refine .succeeded ⟨?_, rfl⟩
            exact (List.merge_perm_append _).trans
              (List.perm_append_comm.trans (List.merge_perm_append _).symm)

theorem modified [Limits] (builtIn : players.BuiltIn) {modifier : Modifier}
    (unrolled : ∀ shaping ∈ modifier.attributes, shaping.rolls = false)
    (inner : Reordered players m n) :
    Reordered players (modified modifier m) (modified modifier n) := by
  constructor
  · rw [duration_modified, duration_modified, inner.lasting]
  · intro c moving
    by_cases phrased : ∃ attributes, modifier = .phrase attributes
    · obtain ⟨attributes, rfl⟩ := phrased
      have insideMoving : 0 < (c.withLoudness attributes).tempo := by
        rwa [Context.withLoudness_tempo]
      rw [perform_phrase, perform_phrase]
      apply (inner.performed _ insideMoving).bind
      intro p q alike
      cases resolved : players.resolve (c.withLoudness attributes).player with
      | error failure => exact .failed trivial
      | ok player =>
          obtain ⟨style, rfl⟩ := builtIn _ player resolved
          exact Comparison.shaped (fun shaping member p q =>
            Performance.agree_shape_reordered style (unrolled shaping member) _) alike
    · rw [perform_modified players m c (not_exists.1 phrased),
        perform_modified players n c (not_exists.1 phrased)]
      cases derived : c.under players modifier with
      | error failure => exact .failed trivial
      | ok inside => exact inner.performed inside (Context.under_tempo_pos derived moving)

end Reordered

/-- Voices may be swapped wherever no chord of the score is rolled. -/
theorem Rearranged.reordered [Limits] (builtIn : players.BuiltIn)
    (swapped : Rearranged Commutes m n)
    (unrolled : ∀ shaping ∈ m.attributes, shaping.rolls = false) : Reordered players m n := by
  induction swapped with
  | here applied =>
      cases applied with
      | swapped left right => exact .swapped players left right
  | refl m => exact .refl m
  | symm inverse ih =>
      apply (ih _).symm
      intro shaping member
      exact unrolled shaping ((inverse.mem_attributes Commutes.mem_attributes shaping).1 member)
  | trans first _ firstIH secondIH =>
      apply (firstIH unrolled).trans (secondIH _)
      intro shaping member
      exact unrolled shaping ((first.mem_attributes Commutes.mem_attributes shaping).2 member)
  | sequential _ _ leftIH rightIH =>
      rw [attributes_sequential, List.forall_mem_append] at unrolled
      exact (leftIH unrolled.1).sequential (rightIH unrolled.2)
  | parallel _ _ leftIH rightIH =>
      rw [attributes_parallel, List.forall_mem_append] at unrolled
      exact (leftIH unrolled.1).parallel (rightIH unrolled.2)
  | modified modifier _ ih =>
      rw [attributes_modified, List.forall_mem_append] at unrolled
      exact (ih unrolled.2).modified builtIn unrolled.1

/-- Parallel composition is commutative up to the order of simultaneous events.  Voices may be
swapped at any depth and any number of times: a score without arpeggios is then performed by the
same events in order of onset, takes the same time and succeeds as before. -/
theorem perform_swapped [Limits] (builtIn : players.BuiltIn) (swapped : Rearranged Commutes m n)
    (unrolled : ∀ shaping ∈ m.attributes, shaping.rolls = false) (moving : 0 < c.tempo) :
    m.duration = n.duration ∧
      (∀ p, m.perform players c = .ok p →
        ∃ q, n.perform players c = .ok q ∧ q.events.Perm p.events ∧ q.duration = p.duration ∧
          Event.InOrder p.events ∧ Event.InOrder q.events) ∧
      ∀ p, (Operand.music m).perform players c = .ok p →
        ∃ q, (Operand.music n).perform players c = .ok q ∧ q.events.Perm p.events ∧
          q.duration = p.duration := by
  have reordered := swapped.reordered builtIn unrolled
  have performed := reordered.performed c moving
  have ordered : ∀ {m : Music} {p}, m.perform players c = .ok p → Event.InOrder p.events := by
    intro m p performed
    exact inOrder_of_performPairwise builtIn.playsInOrder
      ((perform_eq_ok_iff builtIn.playsInOrder moving).1 performed).1
  have granted : Agree (fun _ _ => True) reordering.Likened
      ((Operand.music m).perform players c) ((Operand.music n).perform players c) := by
    rw [Operand.perform, Operand.perform]
    exact performed.bind fun p q alike => Comparison.granted (fun _ => trivial) alike
  refine ⟨reordered.lasting, ?_, ?_⟩
  · intro p first
    obtain ⟨q, second, alike⟩ := performed.exists_ok first
    exact ⟨q, second, alike.events.symm, alike.duration.symm, ordered first, ordered second⟩
  · intro p first
    obtain ⟨q, second, alike⟩ := granted.exists_ok first
    exact ⟨q, second, alike.events.symm, alike.duration.symm⟩

/-- Two voices after a note, in a phrase whose attributes look at all of their events. -/
def sustainedVoices (first second : Music) : Music :=
  modified (.phrase [.slurred (.nearest (5 / 4)), .mordent, .ritardando (.nearest (1 / 2)), .pedal])
    (sequential (quarter .c) (parallel first second))

open Usual

theorem sustainedVoices_swapped :
    ringingPlayers.BuiltIn ∧ (0 : Rat) < 3 / 2 ∧
      Rearranged Commutes (sustainedVoices (quarter .e) (quarter .g))
        (sustainedVoices (quarter .g) (quarter .e)) ∧
      (∀ shaping ∈ (sustainedVoices (quarter .e) (quarter .g)).attributes,
        shaping.rolls = false) ∧
      ∃ p q, (sustainedVoices (quarter .e) (quarter .g)).perform ringingPlayers
          { tempo := 3 / 2 } = .ok p ∧
        (sustainedVoices (quarter .g) (quarter .e)).perform ringingPlayers
          { tempo := 3 / 2 } = .ok q ∧
        q.events.Perm p.events ∧ q.duration = p.duration := by
  have moving : (0 : Rat) < 3 / 2 := by decide +kernel
  have swapped : Rearranged Commutes (sustainedVoices (quarter .e) (quarter .g))
      (sustainedVoices (quarter .g) (quarter .e)) :=
    .modified _ (.sequential (.refl _) (.here (.swapped _ _)))
  have unrolled : ∀ shaping ∈ (sustainedVoices (quarter .e) (quarter .g)).attributes,
      shaping.rolls = false := by decide
  obtain ⟨p, performed⟩ := exists_of_isOk (show
    ((sustainedVoices (quarter .e) (quarter .g)).perform ringingPlayers
      { tempo := 3 / 2 }).isOk = true by decide +kernel)
  obtain ⟨-, alike, -⟩ := perform_swapped (c := { tempo := 3 / 2 }) ringingPlayers_builtIn swapped
    unrolled moving
  obtain ⟨q, other, same, lasting, -, -⟩ := alike p performed
  exact ⟨ringingPlayers_builtIn, moving, swapped, unrolled, p, q, performed, other, same, lasting⟩

end Music

end MusicAlgebra
