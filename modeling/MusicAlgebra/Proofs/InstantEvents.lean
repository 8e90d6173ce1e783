import Mathlib.Algebra.Order.Floor.Defs
import Mathlib.Tactic.FieldSimp
import MusicAlgebra.Proofs.EventMaps
import MusicAlgebra.Proofs.ExchangedPlayers

/-!
# Instant events

A note of no length makes an event of no duration.  Nobody hears it, but it stands among the events
of its phrase.  Effects that look at one event or at one chord at a time make instants of instants,
and they can be taken out before such an effect as well as after it.  Only two effects look at a
phrase as a whole, a pedal and a slur; both are left out here.

A trill may fail, at an instant as at any other event, if it is asked for too many notes.  So it
matters whether a phrase has any events at all.
-/

namespace MusicAlgebra

open Outcome

/-- What is distinct among the items that are kept is what is kept of the distinct items. -/
theorem eraseDups_filter {α : Type} [BEq α] [LawfulBEq α] (keep : α → Bool) (items : List α) :
    (items.filter keep).eraseDups = items.eraseDups.filter keep := by
  match items with
  | [] => rfl
  | item :: others =>
      rw [List.eraseDups_cons]
      cases kept : keep item with
      | true =>
          rw [List.filter_cons_of_pos kept, List.filter_cons_of_pos kept, List.eraseDups_cons,
            List.filter_comm, eraseDups_filter]
      | false =>
          have absent : ((others.filter fun other => !other == item).filter keep) =
              others.filter keep := by
            rw [List.filter_filter]
            apply List.filter_congr
            intro other member
            by_cases same : other = item
            · simp [same, kept]
            · simp [same]
          rw [List.filter_cons_of_neg (by simp [kept]), List.filter_cons_of_neg (by simp [kept]),
            ← eraseDups_filter, absent]
termination_by items.length
decreasing_by all_goals exact Nat.lt_succ_of_le (List.length_filter_le _ _)

/-- Items of which nothing is left may be left out before. -/
theorem flatMap_filter {α β : Type} {keep : α → Bool} {split : α → List β}
    (gone : ∀ item, keep item = false → split item = []) (items : List α) :
    (items.filter keep).flatMap split = items.flatMap split := by
  induction items with
  | nil => rfl
  | cons item items ih =>
      rw [List.flatMap_cons, ← ih]
      cases kept : keep item with
      | true => rw [List.filter_cons_of_pos kept, List.flatMap_cons]
      | false => rw [List.filter_cons_of_neg (by simp [kept]), gone item kept, List.nil_append]

namespace Event

variable {e : Event} {events others : List Event}

/-- Some events without those of no duration. -/
def withoutInstants (events : List Event) : List Event := events.filter fun e => e.duration ≠ 0

theorem mem_withoutInstants : e ∈ withoutInstants events ↔ e ∈ events ∧ e.duration ≠ 0 := by
  simp [withoutInstants]

theorem withoutInstants_append (events others : List Event) :
    withoutInstants (events ++ others) = withoutInstants events ++ withoutInstants others :=
  List.filter_append ..

theorem withoutInstants_sort (events : List Event) :
    withoutInstants (sort events) = sort (withoutInstants events) :=
  filter_sort _ events

theorem sort_eq_nil (none : sort events = []) : events = [] :=
  List.perm_nil.1 (none ▸ (List.mergeSort_perm events noLater).symm)

theorem withoutInstants_eq_nil (instants : ∀ e ∈ events, e.duration = 0) :
    withoutInstants events = [] := by
  simpa [withoutInstants] using instants

theorem withoutInstants_eq_self (lasting : ∀ e ∈ events, e.duration ≠ 0) :
    withoutInstants events = events := by
  simpa [withoutInstants] using lasting

/-- The second list of events is the first one but for some instants, and has no events where the
first one has none. -/
structure Pruned (events others : List Event) : Prop where
  rest : withoutInstants events = withoutInstants others
  nothing : events = [] → others = []

namespace Pruned

theorem refl (events : List Event) : Pruned events events := ⟨rfl, id⟩

theorem trans {fewest : List Event} (pruned : Pruned events others)
    (more : Pruned others fewest) : Pruned events fewest :=
  ⟨pruned.rest.trans more.rest, more.nothing ∘ pruned.nothing⟩

theorem sort (pruned : Pruned events others) : Pruned (sort events) (sort others) := by
  constructor
  · rw [withoutInstants_sort, withoutInstants_sort, pruned.rest]
  · intro none
    rw [pruned.nothing (sort_eq_nil none)]
    exact List.mergeSort_nil

theorem append {first first' second second' : List Event} (left : Pruned first first')
    (right : Pruned second second') : Pruned (first ++ second) (first' ++ second') := by
  constructor
  · rw [withoutInstants_append, withoutInstants_append, left.rest, right.rest]
  · intro none
    obtain ⟨firstNone, secondNone⟩ := List.append_eq_nil_iff.1 none
    rw [left.nothing firstNone, right.nothing secondNone, List.append_nil]

theorem lasting (pruned : Pruned events others) : lasting events = lasting others := by
  have kept : ∀ events, (withoutInstants events).filter (fun e => 0 < e.duration) =
      Event.lasting events := by
    intro events
    rw [withoutInstants, List.filter_filter]
    apply List.filter_congr
    intro e member
    rw [Bool.and_eq_left_iff_imp]
    simpa using fun long : 0 < e.duration => long.ne'
  rw [← kept, ← kept, pruned.rest]

/-- A passage of instants before another one. -/
theorem of_left {first second : List Event} (instants : ∀ e ∈ first, e.duration = 0)
    (order : InOrder second) : Pruned (Event.sort (first ++ second)) second := by
  constructor
  · rw [withoutInstants_sort, withoutInstants_append, withoutInstants_eq_nil instants,
      List.nil_append]
    exact sort_of_inOrder (order.filter _)
  · intro none
    exact (List.append_eq_nil_iff.1 (sort_eq_nil none)).2

/-- A passage of instants behind another one. -/
theorem of_right {first second : List Event} (instants : ∀ e ∈ second, e.duration = 0)
    (order : InOrder first) : Pruned (Event.sort (first ++ second)) first := by
  constructor
  · rw [withoutInstants_sort, withoutInstants_append, withoutInstants_eq_nil instants,
      List.append_nil]
    exact sort_of_inOrder (order.filter _)
  · intro none
    exact (List.append_eq_nil_iff.1 (sort_eq_nil none)).1

end Pruned

/-! ## Effects on single events -/

section Split

variable {split : Event → List Event}

theorem flatMap_withoutInstants (gone : ∀ e : Event, e.duration = 0 → split e = [])
    (events : List Event) : (withoutInstants events).flatMap split = events.flatMap split :=
  flatMap_filter (fun e instant => gone e (by simpa using instant)) events

variable (instants : ∀ e : Event, e.duration = 0 → ∀ piece ∈ split e, piece.duration = 0)

include instants

theorem withoutInstants_flatMap (events : List Event) :
    withoutInstants (events.flatMap split) =
      (withoutInstants events).flatMap fun e => withoutInstants (split e) := by
  rw [flatMap_withoutInstants fun e instant => withoutInstants_eq_nil (instants e instant)]
  exact List.filter_flatMap

/-- An effect that splits instants into instants: either it leaves something of every event, or
nothing of any instant. -/
theorem Pruned.flatMap (fair : (∀ e, split e ≠ []) ∨ ∀ e : Event, e.duration = 0 → split e = [])
    (pruned : Pruned events others) : Pruned (events.flatMap split) (others.flatMap split) := by
  constructor
  · rw [withoutInstants_flatMap instants, withoutInstants_flatMap instants, pruned.rest]
  · intro none
    rcases fair with something | gone
    · have empty : events = [] := by
        apply List.eq_nil_iff_forall_not_mem.2
        intro e member
        exact something e (List.flatMap_eq_nil_iff.1 none e member)
      rw [pruned.nothing empty]
      rfl
    · rw [← flatMap_withoutInstants gone, ← pruned.rest, flatMap_withoutInstants gone, none]

end Split

/-- An effect that gives an instant no duration. -/
theorem Pruned.map {change : Event → Event}
    (instants : ∀ e : Event, e.duration = 0 → (change e).duration = 0)
    (pruned : Pruned events others) : Pruned (events.map change) (others.map change) := by
  rw [List.map_eq_flatMap, List.map_eq_flatMap]
  apply Pruned.flatMap _ (.inl _) pruned
  · intro e instant piece member
    rw [List.mem_singleton.1 member]
    exact instants e instant
  · intro e
    exact List.cons_ne_nil _ _

/-- Alternating pieces last as long as they are asked to. -/
theorem map_duration_alternate (e : Event) (other : Int) (durations : List Rat) :
    (e.alternate other durations).map duration = durations := by
  induction durations generalizing e other with
  | nil => rfl
  | cons duration rest ih => rw [alternate, List.map_cons, ih]

/-- Alternations of events, in which the durations of an instant are all zero. -/
theorem Pruned.alternations {other : Event → Int} {durations : Rat → List Rat}
    (instants : ∀ duration ∈ durations 0, duration = 0)
    (fair : (∀ total, durations total ≠ []) ∨ durations 0 = []) (pruned : Pruned events others) :
    Pruned (events.flatMap fun e => e.alternate (other e) (durations e.duration))
      (others.flatMap fun e => e.alternate (other e) (durations e.duration)) := by
  have none_iff : ∀ (e : Event) other durations,
      e.alternate other durations = [] ↔ durations = [] := by
    intro e other durations
    rw [← List.map_eq_nil_iff, map_duration_alternate]
  apply Pruned.flatMap _ _ pruned
  · intro e instant piece member
    have listed := List.mem_map_of_mem (f := duration) member
    rw [map_duration_alternate, instant] at listed
    exact instants _ listed
  · apply fair.imp
    · intro something e none
      exact something e.duration ((none_iff _ _ _).1 none)
    · intro gone e instant
      rw [instant, none_iff, gone]

theorem Pruned.mordents (neighbour : Event → Int) (shape : MordentShape)
    (pruned : Pruned events others) :
    Pruned (events.flatMap fun e => e.mordent (neighbour e) shape)
      (others.flatMap fun e => e.mordent (neighbour e) shape) := by
  have instants : ∀ duration ∈ shape.pieces 0, duration = 0 := by
    cases shape <;> simp [MordentShape.pieces]
  have something : ∀ total, shape.pieces total ≠ [] := by
    intro total
    cases shape <;> simp [MordentShape.pieces]
  exact pruned.alternations instants (.inl something)

end Event

/-! ## Trills -/

namespace TrillSpeed

/-- How many notes a trill is asked for, but for a shorter one at its end. -/
def number (total : Rat) : TrillSpeed → Int
  | byLength length => (total / length.val).floor
  | byCount count _ => count

/-- The durations of the notes of a trill, however many. -/
def durations (speed : TrillSpeed) (total : Rat) : List Rat :=
  match speed with
  | byLength length => piecesOfLength total length.val
  | byCount count _ => evenPieces total count

theorem trillPieces_eq [Limits] (speed : TrillSpeed) (total : Rat) :
    Event.trillPieces total speed =
      (fun _ => speed.durations total) <$> partCount (speed.number total) := by
  cases speed with
  | byLength length => rfl
  | byCount count pos =>
      rw [Event.trillPieces, evenPieces?, number]
      cases granted : partCount count with
      | error excess => rfl
      | ok given =>
          obtain ⟨rfl, -⟩ := partCount_eq_ok granted
          rfl

/-- An instant has no room for pieces of any length. -/
theorem durations_byLength_instant (length : Scale) : (byLength length).durations 0 = [] := by
  have floor : (0 : Rat).floor = 0 := Rat.floor_intCast 0
  simp [durations, piecesOfLength, floor]

theorem durations_instant (speed : TrillSpeed) : ∀ duration ∈ speed.durations 0, duration = 0 := by
  cases speed with
  | byLength length => simp [durations_byLength_instant]
  | byCount count pos => simp [durations, evenPieces]

/-- A trill of a number of notes has a note in any case, and one by their length has none in an
instant. -/
theorem durations_fair (speed : TrillSpeed) :
    (∀ total, speed.durations total ≠ []) ∨ speed.durations 0 = [] := by
  cases speed with
  | byLength length => exact .inr (durations_byLength_instant length)
  | byCount count pos =>
      left
      intro total
      simp [durations, evenPieces, pos.ne']

end TrillSpeed

namespace Event

variable {e : Event} {events others : List Event} {key : Key} {speed : TrillSpeed}

/-- The notes of a trill, however many. -/
def trilled (e : Event) (key : Key) (speed : TrillSpeed) : List Event :=
  e.alternate (key.upperNeighbour e.pitch) (speed.durations e.duration)

theorem trill_eq [Limits] (e : Event) (key : Key) (speed : TrillSpeed) :
    e.trill key speed = (fun _ => e.trilled key speed) <$> partCount (speed.number e.duration) := by
  rw [trill, speed.trillPieces_eq]
  cases partCount (speed.number e.duration) <;> rfl

theorem trill_eq_ok_iff [Limits] :
    e.trill key speed = .ok (e.trilled key speed) ↔
      ∃ count, partCount (speed.number e.duration) = .ok count := by
  rw [trill_eq, map_eq_ok]
  simp

/-- Events can be trilled that can be trilled one by one. -/
theorem trillAll_eq_ok_iff [Limits] {pieces : List Event} :
    trillAll events key speed = .ok pieces ↔
      (∀ e ∈ events, ∃ count, partCount (speed.number e.duration) = .ok count) ∧
        pieces = events.flatMap (·.trilled key speed) := by
  have only : ∀ e pieces, trill e key speed = .ok pieces → pieces = e.trilled key speed := by
    intro e pieces played
    rw [trill_eq] at played
    obtain ⟨count, -, rfl⟩ := map_eq_ok.1 played
    rfl
  have granted : (∀ e ∈ events, ∃ count, partCount (speed.number e.duration) = .ok count) ↔
      ∀ e ∈ events, e.trill key speed = .ok (e.trilled key speed) :=
    forall₂_congr fun e member => trill_eq_ok_iff.symm
  rw [trillAll, List.flatMap_def, granted]
  constructor
  · intro played
    obtain ⟨parts, traversed, rfl⟩ := map_eq_ok.1 played
    obtain ⟨each, rfl⟩ := (mapM_eq_ok_iff only).1 traversed
    exact ⟨each, rfl⟩
  · rintro ⟨each, rfl⟩
    exact map_eq_ok.2 ⟨_, (mapM_eq_ok_iff only).2 ⟨each, rfl⟩, rfl⟩

/-- A number of notes is granted to all events or to none, and a length to any instant. -/
theorem Pruned.granted [Limits] (pruned : Pruned events others)
    (granted : ∀ e ∈ events, ∃ count, partCount (speed.number e.duration) = .ok count) :
    ∀ e ∈ others, ∃ count, partCount (speed.number e.duration) = .ok count := by
  intro e member
  cases speed with
  | byLength length =>
      by_cases instant : e.duration = 0
      · refine ⟨0, ?_⟩
        rw [instant, TrillSpeed.number, zero_div]
        exact partCount_of_le (Nat.zero_le _)
      · have kept : e ∈ withoutInstants events := by
          rw [pruned.rest]
          exact mem_withoutInstants.2 ⟨member, instant⟩
        exact granted e (mem_withoutInstants.1 kept).1
  | byCount count pos =>
      cases events with
      | nil =>
          rw [pruned.nothing rfl] at member
          cases member
      | cons first events => exact granted first List.mem_cons_self

theorem Pruned.trillAll [Limits] (pruned : Pruned events others) (key : Key) (speed : TrillSpeed) :
    Follows Pruned (trillAll events key speed) (trillAll others key speed) := by
  intro pieces played
  obtain ⟨granted, rfl⟩ := trillAll_eq_ok_iff.1 played
  exact ⟨_, trillAll_eq_ok_iff.2 ⟨pruned.granted granted, rfl⟩,
    pruned.alternations speed.durations_instant speed.durations_fair⟩

/-! ## Chords -/

theorem length_slices (onset step : Rat) (events : List Event) :
    (slices onset step events).length = events.length := by
  induction events generalizing onset with
  | nil => rfl
  | cons e events ih => rw [slices, List.length_cons, List.length_cons, ih]

theorem duration_of_mem_slices {onset step : Rat} (member : e ∈ slices onset step events) :
    e.duration = step := by
  induction events generalizing onset with
  | nil => cases member
  | cons first events ih =>
      rcases List.mem_cons.1 member with rfl | member
      · rfl
      · exact ih member

theorem length_rollChord (direction : Direction) (chord : List Event) :
    (rollChord direction chord).length = chord.length := by
  unfold rollChord
  split
  · split
    · rw [length_slices, List.length_mergeSort]
    · rfl
  · rfl

/-- The notes of a chord are instants as long as they are rolled. -/
theorem instant_of_mem_rollChord {direction : Direction} {length : Rat}
    (together : ∀ e ∈ events, e.duration = length) (member : e ∈ rollChord direction events) :
    e.duration = 0 ↔ length = 0 := by
  unfold rollChord at member
  split at member
  · rename_i first second others
    split at member
    · have many : ((first :: second :: others).length : Rat) ≠ 0 :=
        Nat.cast_ne_zero.2 (Nat.succ_ne_zero _)
      rw [duration_of_mem_slices member, together first List.mem_cons_self, div_eq_zero_iff,
        or_iff_left many]
    · rw [together e member]
  · rw [together e member]

/-- The notes of a chord are all instants or none, so those that are not form the other chords. -/
theorem chords_withoutInstants (events : List Event) :
    chords (withoutInstants events) =
      ((events.map chordKey).eraseDups.filter fun key => key.2 ≠ 0).map fun key =>
        events.filter (·.chordKey == key) := by
  have keys : (withoutInstants events).map chordKey =
      (events.map chordKey).filter fun key => key.2 ≠ 0 := by
    rw [List.filter_map]
    rfl
  rw [chords, keys, eraseDups_filter]
  apply List.map_congr_left
  intro key member
  have lasting : key.2 ≠ 0 := by simpa using (List.mem_filter.1 member).2
  rw [withoutInstants, List.filter_filter]
  apply List.filter_congr
  intro e _
  by_cases here : e.chordKey = key
  · subst here
    simpa [chordKey] using lasting
  · simp [here]

/-- A chord is rolled as a whole or left out as a whole. -/
theorem withoutInstants_arpeggio (direction : Direction) (events : List Event) :
    withoutInstants (arpeggio direction events) = arpeggio direction (withoutInstants events) := by
  have together : ∀ key : Rat × Rat, ∀ e ∈ events.filter (·.chordKey == key),
      e.duration = key.2 := by
    intro key e member
    rw [← LawfulBEq.eq_of_beq (List.mem_filter.1 member).2]
    rfl
  have gone : ∀ key : Rat × Rat, decide (key.2 ≠ 0) = false →
      withoutInstants (rollChord direction (events.filter (·.chordKey == key))) = [] := by
    intro key instant
    apply withoutInstants_eq_nil
    intro e member
    exact (instant_of_mem_rollChord (together key) member).2 (by simpa using instant)
  have whole : ∀ key ∈ ((events.map chordKey).eraseDups.filter fun key => key.2 ≠ 0),
      withoutInstants (rollChord direction (events.filter (·.chordKey == key))) =
        rollChord direction (events.filter (·.chordKey == key)) := by
    intro key lasting
    apply withoutInstants_eq_self
    intro e member
    have kept : key.2 ≠ 0 := by simpa using (List.mem_filter.1 lasting).2
    exact (instant_of_mem_rollChord (together key) member).not.2 kept
  rw [arpeggio, arpeggio, withoutInstants_sort, chords_withoutInstants, chords, List.flatMap_map,
    List.flatMap_map, withoutInstants, List.filter_flatMap, ← List.flatMap_congr whole,
    flatMap_filter gone]
  rfl

theorem arpeggio_eq_nil {direction : Direction} (none : arpeggio direction events = []) :
    events = [] := by
  apply List.eq_nil_iff_forall_not_mem.2
  intro e member
  have chord : events.filter (·.chordKey == e.chordKey) ∈ chords events :=
    List.mem_map_of_mem (List.mem_eraseDups.2 (List.mem_map_of_mem member))
  have unrolled := congrArg List.length
    (List.flatMap_eq_nil_iff.1 (sort_eq_nil none) _ chord)
  rw [length_rollChord, List.length_nil, List.length_eq_zero_iff,
    List.filter_eq_nil_iff] at unrolled
  exact unrolled e member BEq.rfl

theorem Pruned.arpeggio (pruned : Pruned events others) (direction : Direction) :
    Pruned (arpeggio direction events) (arpeggio direction others) := by
  constructor
  · rw [withoutInstants_arpeggio, withoutInstants_arpeggio, pruned.rest]
  · intro none
    rw [pruned.nothing (arpeggio_eq_nil none)]
    exact List.mergeSort_nil

end Event

/-! ## Attributes -/

theorem Span.stretch_instant {span : Span} {amount : Rat} {e : Event} (instant : e.duration = 0) :
    (span.stretch amount e).duration = 0 := by
  rw [stretch]
  split
  · exact instant
  · exact mul_eq_zero_of_left instant _

/-- Whether an attribute ties events to the last ones of their phrase. -/
def Attribute.binds : Attribute → Bool
  | slurred _ | pedal => true
  | _ => false

namespace Style

open Event

variable {events others : List Event} {shaping : Attribute}

theorem interpretCommon_pruned (pruned : Pruned events others) (shaping : Attribute) :
    Pruned (interpretCommon events shaping) (interpretCommon others shaping) := by
  cases shaping with
  | accent factor => exact pruned.map fun e instant => instant
  | staccato fraction | legato fraction =>
      exact pruned.map fun e instant => mul_eq_zero_of_left instant _
  | _ => exact pruned

theorem follows_interpretFancy [Limits] (pruned : Pruned events others)
    (free : shaping.binds = false)
    (key : Key) (span : Span) :
    Follows Pruned (interpretFancy events shaping key span)
      (interpretFancy others shaping key span) := by
  cases shaping with
  | slurred fraction | pedal => cases free
  | crescendo amount | diminuendo amount le_one | diatonicTranspose degrees =>
      exact .succeeded (pruned.map fun e instant => instant)
  | trill speed => exact (pruned.trillAll key speed).mapError
  | mordent | invertedMordent | doubleMordent => exact .succeeded (pruned.mordents _ _)
  | arpeggioUp | arpeggioDown => exact .succeeded (pruned.arpeggio _)
  | _ => exact .succeeded (interpretCommon_pruned pruned _)

/-- Instants may be taken out of a phrase before an attribute is read. -/
theorem follows_interpretPhrase [Limits] (style : Style) (pruned : Pruned events others)
    (free : shaping.binds = false) (c : Context) (span : Span) :
    Follows Pruned (style.interpretPhrase events shaping c span)
      (style.interpretPhrase others shaping c span) := by
  cases style with
  | fancy => exact follows_interpretFancy pruned free c.key span
  | _ => exact .succeeded (interpretCommon_pruned pruned shaping)

end Style

namespace Performance

/-- The same performance without some of the instants among its events. -/
structure Pruned (p q : Performance) : Prop where
  events : Event.Pruned p.events q.events
  duration : p.duration = q.duration

variable {p q : Performance} {c : Context}

theorem follows_shape [Limits] (style : Style) (pruned : p.Pruned q) {shaping : Attribute}
    (free : shaping.binds = false) :
    Follows Pruned (p.shape (.builtIn style) c shaping) (q.shape (.builtIn style) c shaping) := by
  have lasting := pruned.duration
  cases shaping with
  | loudness volume | dynamic standard => exact .succeeded pruned
  | ritardando amount | accelerando amount le_half =>
      simp only [shape, lasting]
      exact .succeeded ⟨pruned.events.map fun e instant => Span.stretch_instant instant, rfl⟩
  | _ =>
      simp only [shape, lasting]
      apply (style.follows_interpretPhrase pruned.events free c _).bind
      intro events others both
      exact .succeeded ⟨both, rfl⟩

theorem follows_shapeAll [Limits] (style : Style) (pruned : p.Pruned q)
    {attributes : List Attribute}
    (free : ∀ shaping ∈ attributes, shaping.binds = false) :
    Follows Pruned (p.shapeAll (.builtIn style) c attributes)
      (q.shapeAll (.builtIn style) c attributes) := by
  have steps : ∀ shaping ∈ attributes, ∀ p q : Performance, p.Pruned q →
      Follows Pruned (p.shape (.builtIn style) c shaping) (q.shape (.builtIn style) c shaping) := by
    intro shaping member p q both
    exact follows_shape style both (free shaping member)
  apply (Follows.foldlM steps pruned).bind
  intro shaped shaped' both
  exact .succeeded ⟨both.events.sort, both.duration⟩

end Performance

end MusicAlgebra
