import MusicAlgebra.Performance.Player
import MusicAlgebra.Proofs.EventMaps

/-!
# Transposed events

A transposition adds the same number of semitones to every pitch.  Nothing that shapes a phrase in
time or volume looks at pitches, and a roll only asks which of two pitches is the higher one, so these
effects can be transposed afterwards as well as before.  Ornaments that move by degrees of a key are
different: they look at where a pitch stands in the scale.  A scale is the same in every octave, so
they still follow a transposition by whole octaves.
-/

namespace MusicAlgebra

open Outcome

variable {n : Int}

/-! ## Motion in a key -/

namespace Key

/-- Pitches that are octaves apart lie equally far above the classes of a scale. -/
theorem above_add (octaves : 12 ∣ n) (pitch pitchClass : Int) :
    above (pitch + n) pitchClass = above pitch pitchClass := by
  unfold above
  omega

theorem above_add_right (octaves : 12 ∣ n) (pitch pitchClass : Int) :
    above pitchClass (pitch + n) = above pitchClass pitch := by
  unfold above
  omega

theorem nearestDegree_add (octaves : 12 ∣ n) (k : Key) (pitch : Int) :
    k.nearestDegree (pitch + n) = k.nearestDegree pitch := by
  have distances : above (pitch + n) = above pitch := funext (above_add octaves pitch)
  rw [nearestDegree, nearestDegree, distances]

/-- Motion by degrees is the same in every octave. -/
theorem diatonicTranspose_add (octaves : 12 ∣ n) (k : Key) (pitch degrees : Int) :
    k.diatonicTranspose (pitch + n) degrees = k.diatonicTranspose pitch degrees + n := by
  simp only [diatonicTranspose, nearestDegree_add octaves, above_add_right octaves]
  split
  · omega
  · omega

end Key

namespace Event

/-- The event some semitones higher. -/
def transposed (n : Int) (e : Event) : Event := { e with pitch := e.pitch + n }

@[simp] theorem transposed_onset (e : Event) : (e.transposed n).onset = e.onset := rfl

@[simp] theorem transposed_duration (e : Event) : (e.transposed n).duration = e.duration := rfl

@[simp] theorem transposed_pitch (e : Event) : (e.transposed n).pitch = e.pitch + n := rfl

@[simp] theorem transposed_volume (e : Event) : (e.transposed n).volume = e.volume := rfl

@[simp] theorem transposed_finish (e : Event) : (e.transposed n).finish = e.finish := rfl

/-! ## Slurs and pedals -/

theorem lastOnset?_transposed (events : List Event) :
    lastOnset? (events.map (transposed n)) = lastOnset? events := by
  cases events with
  | nil => rfl
  | cons first others =>
      simp only [List.map_cons, lastOnset?, List.foldl_map, transposed_onset]

theorem slur_transposed (events : List Event) (fraction : Rat) :
    slur (events.map (transposed n)) fraction = (slur events fraction).map (transposed n) := by
  rw [slur, slur, lastOnset?_transposed]
  cases lastOnset? events with
  | none => rfl
  | some last =>
      simp only [List.map_map]
      apply List.map_congr_left
      intro e member
      rw [Function.comp_apply, Function.comp_apply, apply_ite (transposed n)]
      rfl

theorem pedal_transposed (events : List Event) :
    pedal (events.map (transposed n)) = (pedal events).map (transposed n) := by
  cases events with
  | nil => rfl
  | cons first others =>
      simp only [pedal, Performance.endTime, List.map_cons, List.map_map, List.foldl_map,
        Function.comp_def, transposed_finish, transposed_onset]
      rfl

/-! ## Ornaments of single events -/

/-- Both pitches of an alternation are transposed. -/
theorem alternate_transposed (e : Event) (other : Int) (durations : List Rat) :
    (e.transposed n).alternate (other + n) durations =
      (e.alternate other durations).map (transposed n) := by
  induction durations generalizing e other with
  | nil => rfl
  | cons duration rest ih =>
      have next := ih { e with onset := e.onset + duration, pitch := other } e.pitch
      simp only [transposed] at next
      simp only [List.map_cons, alternate, transposed, next]

theorem trill_transposed [Limits] (octaves : 12 ∣ n) (e : Event) (key : Key) (speed : TrillSpeed) :
    (e.transposed n).trill key speed = List.map (transposed n) <$> e.trill key speed := by
  rw [trill, trill, transposed_duration, transposed_pitch, Key.upperNeighbour,
    Key.diatonicTranspose_add octaves]
  cases trillPieces e.duration speed with
  | error excess => rfl
  | ok durations => exact congrArg Except.ok (alternate_transposed e _ durations)

theorem mordents_transposed {neighbour : Int → Int}
    (followed : ∀ pitch, neighbour (pitch + n) = neighbour pitch + n) (events : List Event)
    (shape : MordentShape) :
    ((events.map (transposed n)).flatMap fun e => e.mordent (neighbour e.pitch) shape) =
      (events.flatMap fun e => e.mordent (neighbour e.pitch) shape).map (transposed n) := by
  simp only [List.flatMap_map, List.map_flatMap, mordent, transposed_duration, transposed_pitch,
    followed, alternate_transposed]

/-! ## Chords -/

theorem chords_transposed (events : List Event) :
    chords (events.map (transposed n)) = (chords events).map (List.map (transposed n)) := by
  apply chords_map Function.injective_id
  intro e
  rfl

theorem slices_transposed (onset step : Rat) (events : List Event) :
    slices onset step (events.map (transposed n)) =
      (slices onset step events).map (transposed n) := by
  induction events generalizing onset with
  | nil => rfl
  | cons e rest ih =>
      simp only [List.map_cons, slices, ih]
      rfl

/-- Of two transposed pitches the same one is the higher. -/
theorem rollChord_transposed (direction : Direction) (chord : List Event) :
    rollChord direction (chord.map (transposed n)) =
      (rollChord direction chord).map (transposed n) := by
  apply rollChord_map
  · intro first second
    cases direction <;> simp only [Direction.inOrder, transposed_pitch, Int.add_le_add_iff_right]
  · intro e number chord
    exact slices_transposed e.onset _ chord

theorem noLater_transposed (first second : Event) :
    (first.transposed n).noLater (second.transposed n) = first.noLater second := rfl

theorem sort_transposed (events : List Event) :
    sort (events.map (transposed n)) = (sort events).map (transposed n) :=
  sort_map noLater_transposed events

theorem arpeggio_transposed (direction : Direction) (events : List Event) :
    arpeggio direction (events.map (transposed n)) =
      (arpeggio direction events).map (transposed n) := by
  rw [arpeggio, arpeggio, ← sort_transposed, chords_transposed, List.flatMap_map,
    List.map_flatMap]
  simp only [rollChord_transposed]

end Event

/-! ## Time -/

theorem Span.stretch_transposed (s : Span) (amount : Rat) (e : Event) :
    s.stretch amount (e.transposed n) = (s.stretch amount e).transposed n := by
  rw [stretch, stretch]
  split
  · rfl
  · rfl

end MusicAlgebra
