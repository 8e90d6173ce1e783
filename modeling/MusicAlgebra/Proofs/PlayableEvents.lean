import MusicAlgebra.Proofs.PerformedDuration
import MusicAlgebra.Proofs.Players

/-!
# Playable events

A device can play an event that lasts for some time at a volume of the MIDI range on an instrument
of General MIDI.  Every effect of a phrase keeps events playable and moves none of them to before
the beginning of the phrase.  An effect that changes one of the four requirements restores it by
the sign of its argument or by a clamp; the others it keeps.
-/

namespace MusicAlgebra

open Outcome

/-- The name of a melodic program or of the drum kit. -/
def Instrument.IsCanonical (name : String) : Prop := name ∈ melodicNames ∨ name = "percussion"

instance (name : String) : Decidable (Instrument.IsCanonical name) :=
  inferInstanceAs (Decidable (_ ∨ _))

theorem Instrument.isCanonical_name (i : Instrument) : IsCanonical i.name := by
  cases i with
  | melodic program =>
      left
      exact List.get_mem melodicNames _
  | percussion =>
      right
      rfl

/-! ## Pieces of a length -/

theorem nonneg_of_evenPieces? [Limits] {total : Rat} {count : Int} {pieces : List Rat}
    (nonneg : 0 ≤ total) (split : evenPieces? total count = .ok pieces) :
    ∀ piece ∈ pieces, 0 ≤ piece := by
  intro piece member
  obtain ⟨number, -, rfl⟩ := map_eq_ok.1 split
  rw [(List.mem_replicate.1 member).2]
  exact div_nonneg nonneg (Nat.cast_nonneg number)

theorem nonneg_of_piecesOfLength? [Limits] {total length : Rat} {pieces : List Rat}
    (pos : 0 < length)
    (split : piecesOfLength? total length = .ok pieces) : ∀ piece ∈ pieces, 0 ≤ piece := by
  intro piece member
  obtain ⟨number, -, rfl⟩ := map_eq_ok.1 split
  rcases List.mem_append.1 member with whole | rest
  · rw [(List.mem_replicate.1 whole).2]
    exact pos.le
  · split at rest
    · cases rest
    · rw [List.mem_singleton.1 rest]
      -- as many pieces as fit are no longer than the total
      have fits : ((total / length).floor : Rat) ≤ total / length := Rat.floor_le _
      exact sub_nonneg.2 ((le_div_iff₀ pos).1 fits)

namespace Event

/-- An event that does not begin before a moment, and that a device can play. -/
structure Playable (start : Rat) (e : Event) : Prop where
  begins : start ≤ e.onset
  lasts : 0 ≤ e.duration
  loud : 0 ≤ e.volume ∧ e.volume ≤ 127
  canonical : Instrument.IsCanonical e.instrument

def AllPlayable (start : Rat) (events : List Event) : Prop := ∀ e ∈ events, e.Playable start

variable {start : Rat} {e : Event} {events : List Event}

theorem Playable.from_earlier {later : Rat} (playable : e.Playable later) (order : start ≤ later) :
    e.Playable start := by
  constructor
  · exact order.trans playable.begins
  · exact playable.lasts
  · exact playable.loud
  · exact playable.canonical

theorem AllPlayable.from_earlier {later : Rat} (playable : AllPlayable later events)
    (order : start ≤ later) : AllPlayable start events := by
  intro e member
  exact (playable e member).from_earlier order

theorem AllPlayable.append {others : List Event} (first : AllPlayable start events)
    (second : AllPlayable start others) : AllPlayable start (events ++ others) := by
  intro e member
  rcases List.mem_append.1 member with member | member
  · exact first e member
  · exact second e member

theorem AllPlayable.map {change : Event → Event}
    (keeps : ∀ e, e.Playable start → (change e).Playable start)
    (playable : AllPlayable start events) : AllPlayable start (events.map change) := by
  intro e member
  obtain ⟨source, sourceMem, rfl⟩ := List.mem_map.1 member
  exact keeps source (playable source sourceMem)

theorem AllPlayable.flatMap {split : Event → List Event}
    (keeps : ∀ e, e.Playable start → AllPlayable start (split e))
    (playable : AllPlayable start events) : AllPlayable start (events.flatMap split) := by
  intro e member
  obtain ⟨source, sourceMem, piece⟩ := List.mem_flatMap.1 member
  exact keeps source (playable source sourceMem) e piece

theorem AllPlayable.sort (playable : AllPlayable start events) :
    AllPlayable start (sort events) := by
  intro e member
  exact playable e (mem_sort.1 member)

/-! ## Effects on single events -/

theorem Playable.moved (playable : e.Playable start) {onset duration : Rat} (pitch : Int)
    (begins : start ≤ onset) (lasts : 0 ≤ duration) :
    { e with onset, duration, pitch }.Playable start := by
  constructor
  · exact begins
  · exact lasts
  · exact playable.loud
  · exact playable.canonical

theorem Playable.reweighed (playable : e.Playable start) (volume : Int) :
    { e with volume := Volume.clamp volume }.Playable start := by
  constructor
  · exact playable.begins
  · exact playable.lasts
  · exact ⟨Volume.clamp_nonneg volume, Volume.clamp_le volume⟩
  · exact playable.canonical

theorem Playable.rescaled (playable : e.Playable start) {fraction : Rat} (nonneg : 0 ≤ fraction) :
    { e with duration := e.duration * fraction }.Playable start := by
  apply playable.moved e.pitch playable.begins
  exact mul_nonneg playable.lasts nonneg

/-- A change of tempo keeps events where they can be played: an event that rings past the end of
the phrase is held where it would be turned round. -/
theorem Playable.stretched (s : Span) (playable : e.Playable s.start) (amount : Rat) :
    (s.stretch amount e).Playable s.start := by
  have held : ∀ factor, 0 ≤ Span.nonnegative factor := by
    intro factor
    rw [Span.nonnegative]
    split
    · assumption
    · exact le_rfl
  rw [Span.stretch]
  split
  · exact playable
  · apply playable.moved e.pitch
    · apply le_add_of_nonneg_right
      exact mul_nonneg (sub_nonneg.2 playable.begins) (held _)
    · exact mul_nonneg playable.lasts (held _)

/-! ## Effects on whole phrases -/

theorem AllPlayable.slur (playable : AllPlayable start events) {fraction : Rat}
    (nonneg : 0 ≤ fraction) : AllPlayable start (slur events fraction) := by
  rw [Event.slur]
  split
  · exact playable
  · apply playable.map
    intro e playable
    split
    · exact playable.rescaled nonneg
    · exact playable

theorem le_foldl_max (moment : Event → Rat) (events : List Event) (latest : Rat) :
    latest ≤ events.foldl (fun latest e => max latest (moment e)) latest ∧
      ∀ e ∈ events, moment e ≤ events.foldl (fun latest e => max latest (moment e)) latest := by
  induction events generalizing latest with
  | nil => simp
  | cons first others ih =>
      obtain ⟨started, bounds⟩ := ih (max latest (moment first))
      constructor
      · exact (le_max_left _ _).trans started
      · intro e member
        rcases List.mem_cons.1 member with rfl | member
        · exact (le_max_right _ _).trans started
        · exact bounds e member

theorem finish_le_endTime (duration : Rat) (member : e ∈ events) :
    e.finish ≤ (Performance.mk events duration).endTime := by
  cases events with
  | nil => cases member
  | cons first others =>
      simp only [Performance.endTime, Performance.later_eq_max]
      rcases List.mem_cons.1 member with rfl | member
      · exact (le_foldl_max finish others e.finish).1
      · exact (le_foldl_max finish others first.finish).2 e member

theorem AllPlayable.pedal (playable : AllPlayable start events) :
    AllPlayable start (pedal events) := by
  intro e member
  cases events with
  | nil => cases member
  | cons first others =>
      obtain ⟨source, sourceMem, rfl⟩ := List.mem_map.1 member
      have held := finish_le_endTime 0 sourceMem
      have lasts := (playable source sourceMem).lasts
      apply (playable source sourceMem).moved source.pitch (playable source sourceMem).begins
      apply sub_nonneg.2
      exact (le_add_of_nonneg_right lasts).trans held

theorem Playable.alternate {durations : List Rat} (playable : e.Playable start) (other : Int)
    (nonneg : ∀ duration ∈ durations, 0 ≤ duration) :
    AllPlayable start (alternate e other durations) := by
  induction durations generalizing e other with
  | nil =>
      intro piece member
      cases member
  | cons duration durations ih =>
      have lasts := nonneg duration List.mem_cons_self
      intro piece member
      rcases List.mem_cons.1 member with rfl | member
      · exact playable.moved e.pitch playable.begins lasts
      · apply ih _ e.pitch _ piece member
        · exact playable.moved other (le_add_of_le_of_nonneg playable.begins lasts) playable.lasts
        · intro later laterMem
          exact nonneg later (List.mem_cons_of_mem duration laterMem)

theorem Playable.trill [Limits] {key : Key} {speed : TrillSpeed} {pieces : List Event}
    (playable : e.Playable start) (trilled : trill e key speed = .ok pieces) :
    AllPlayable start pieces := by
  obtain ⟨durations, split, rfl⟩ := map_eq_ok.1 trilled
  apply playable.alternate
  cases speed with
  | byLength length => exact nonneg_of_piecesOfLength? length.pos split
  | byCount count pos => exact nonneg_of_evenPieces? playable.lasts split

theorem AllPlayable.trillAll [Limits] {key : Key} {speed : TrillSpeed} {pieces : List Event}
    (playable : AllPlayable start events) (trilled : trillAll events key speed = .ok pieces) :
    AllPlayable start pieces := by
  obtain ⟨parts, traversed, rfl⟩ := map_eq_ok.1 trilled
  intro piece member
  obtain ⟨part, partMem, pieceMem⟩ := List.mem_flatten.1 member
  obtain ⟨source, sourceMem, played⟩ := exists_of_mem_mapM traversed partMem
  exact (playable source sourceMem).trill played piece pieceMem

theorem MordentShape.pieces_nonneg (shape : MordentShape) {total : Rat} (nonneg : 0 ≤ total) :
    ∀ piece ∈ shape.pieces total, 0 ≤ piece := by
  intro piece member
  cases shape with
  | single =>
      simp only [pieces, List.mem_cons, List.not_mem_nil, or_false] at member
      rcases member with rfl | rfl | rfl <;> positivity
  | double =>
      simp only [pieces, List.mem_cons, List.not_mem_nil, or_false] at member
      rcases member with rfl | rfl | rfl | rfl | rfl <;> positivity

theorem Playable.mordent (playable : e.Playable start) (neighbour : Int) (shape : MordentShape) :
    AllPlayable start (mordent e neighbour shape) := by
  apply playable.alternate
  exact shape.pieces_nonneg playable.lasts

/-- The slices of a chord follow each other from its beginning on. -/
theorem AllPlayable.slices (playable : AllPlayable start events) {onset step : Rat}
    (begins : start ≤ onset) (lasts : 0 ≤ step) :
    AllPlayable start (slices onset step events) := by
  induction events generalizing onset with
  | nil =>
      intro e member
      cases member
  | cons first others ih =>
      intro e member
      rcases List.mem_cons.1 member with rfl | member
      · exact (playable first List.mem_cons_self).moved first.pitch begins lasts
      · apply ih _ (le_add_of_le_of_nonneg begins lasts) e member
        intro other otherMem
        exact playable other (List.mem_cons_of_mem first otherMem)

theorem AllPlayable.rollChord (playable : AllPlayable start events) (direction : Direction) :
    AllPlayable start (rollChord direction events) := by
  unfold Event.rollChord
  split
  · rename_i first second others
    have head := playable first List.mem_cons_self
    split
    · apply AllPlayable.slices
      · intro e member
        exact playable e (List.mem_mergeSort.1 member)
      · exact head.begins
      · exact div_nonneg head.lasts (Nat.cast_nonneg _)
    · exact playable
  · exact playable

theorem AllPlayable.arpeggio (playable : AllPlayable start events) (direction : Direction) :
    AllPlayable start (arpeggio direction events) := by
  apply AllPlayable.sort
  intro e member
  obtain ⟨chord, chordMem, rolled⟩ := List.mem_flatMap.1 member
  obtain ⟨key, -, rfl⟩ := List.mem_map.1 chordMem
  have together : AllPlayable start (events.filter (·.chordKey == key)) := by
    intro note noteMem
    exact playable note (List.mem_of_mem_filter noteMem)
  exact together.rollChord direction e rolled

end Event

end MusicAlgebra
