import Mathlib.Algebra.Order.Field.Basic
import Mathlib.Algebra.Order.Ring.Rat
import Mathlib.Tactic.FieldSimp
import Mathlib.Tactic.Linarith
import Mathlib.Tactic.Ring
import MusicAlgebra.Performance.Player
import MusicAlgebra.Proofs.EventMaps

/-!
# Retiming

A retiming moves every moment to another one and stretches every length evenly: later by the same
time everywhere, or slower from some moment on.  The effects of a phrase compute with onsets and
durations in many ways, yet all of them measure time from the phrase that they shape and in
proportion to it.  So it makes no difference whether the events of a phrase are retimed before an
effect or after it.  A trill whose notes have a length of their own is the one exception: it can be
moved, but not stretched.
-/

namespace MusicAlgebra

open Outcome

/-- An even change of time.  Moments keep their order, since the factor is positive. -/
structure Retiming where
  offset : Rat
  factor : Scale

namespace Retiming

variable (τ : Retiming)

/-- Where a moment is moved. -/
def moment (t : Rat) : Rat := τ.offset + t * τ.factor.val

/-- How long a length becomes. -/
def length (d : Rat) : Rat := d * τ.factor.val

def event (e : Event) : Event :=
  { e with onset := τ.moment e.onset, duration := τ.length e.duration }

def span (s : Span) : Span := ⟨τ.moment s.start, τ.length s.duration⟩

/-- Everything `t` later. -/
def delay (t : Rat) : Retiming := ⟨t, 1⟩

/-- Everything `r` times as fast from a moment on, which stays where it is. -/
def hurry (start : Rat) (r : Scale) : Retiming :=
  ⟨start - start / r.val, ⟨1 / r.val, div_pos one_pos r.pos⟩⟩

@[simp] theorem delay_factor (t : Rat) : (delay t).factor = 1 := rfl

@[simp] theorem delay_moment (t s : Rat) : (delay t).moment s = s + t := by
  rw [moment, delay_factor, Scale.val_one, mul_one, delay, add_comm]

@[simp] theorem delay_length (t d : Rat) : (delay t).length d = d := by
  rw [length, delay_factor, Scale.val_one, mul_one]

theorem hurry_moment (start : Rat) (r : Scale) (t : Rat) :
    (hurry start r).moment t = start + (t - start) / r.val := by
  simp only [moment, hurry]
  ring

theorem hurry_length (start : Rat) (r : Scale) (d : Rat) :
    (hurry start r).length d = d / r.val := by
  simp only [length, hurry, mul_one_div]

/-! ## Moments and lengths -/

variable {τ}

theorem moment_add (t d : Rat) : τ.moment (t + d) = τ.moment t + τ.length d := by
  rw [moment, moment, length, add_mul, add_assoc]

theorem moment_sub_moment (t s : Rat) : τ.moment t - τ.moment s = τ.length (t - s) := by
  rw [moment, moment, length, sub_mul, add_sub_add_left_eq_sub]

theorem length_mul (d q : Rat) : τ.length (d * q) = τ.length d * q := mul_right_comm _ _ _

theorem length_div (d q : Rat) : τ.length (d / q) = τ.length d / q := div_mul_eq_mul_div _ _ _

theorem length_of_factor (unstretched : τ.factor = 1) (d : Rat) : τ.length d = d := by
  rw [length, unstretched, Scale.val_one, mul_one]

@[simp] theorem length_eq_zero {d : Rat} : τ.length d = 0 ↔ d = 0 := by
  rw [length, mul_eq_zero, or_iff_left τ.factor.pos.ne']

@[simp] theorem length_div_length (d total : Rat) : τ.length d / τ.length total = d / total :=
  mul_div_mul_right d total τ.factor.pos.ne'

@[simp] theorem moment_le_moment {s t : Rat} : τ.moment s ≤ τ.moment t ↔ s ≤ t := by
  rw [moment, moment, add_le_add_iff_left, mul_le_mul_iff_left₀ τ.factor.pos]

@[simp] theorem moment_lt_moment {s t : Rat} : τ.moment s < τ.moment t ↔ s < t := by
  rw [← not_le, ← not_le, moment_le_moment]

@[simp] theorem moment_inj {s t : Rat} : τ.moment s = τ.moment t ↔ s = t := by
  rw [le_antisymm_iff, le_antisymm_iff, moment_le_moment, moment_le_moment]

@[simp] theorem length_inj {c d : Rat} : τ.length c = τ.length d ↔ c = d :=
  mul_left_inj' τ.factor.pos.ne'

@[simp] theorem event_pitch (e : Event) : (τ.event e).pitch = e.pitch := rfl

@[simp] theorem event_onset (e : Event) : (τ.event e).onset = τ.moment e.onset := rfl

@[simp] theorem event_duration (e : Event) : (τ.event e).duration = τ.length e.duration := rfl

@[simp] theorem event_volume (e : Event) : (τ.event e).volume = e.volume := rfl

@[simp] theorem event_instrument (e : Event) : (τ.event e).instrument = e.instrument := rfl

@[simp] theorem span_start (s : Span) : (τ.span s).start = τ.moment s.start := rfl

@[simp] theorem span_duration (s : Span) : (τ.span s).duration = τ.length s.duration := rfl

/-- The end of an event is moved along with it. -/
theorem event_finish (e : Event) : (τ.event e).finish = τ.moment e.finish :=
  (moment_add e.onset e.duration).symm

end Retiming

open Retiming

variable {τ : Retiming} {events : List Event}

/-- A trill that follows the time of its event: the number of its notes is given. -/
def TrillSpeed.Elastic : TrillSpeed → Prop
  | byLength _ => False
  | byCount .. => True

/-! ## Spans -/

@[simp] theorem Span.progress_retimed (s : Span) (onset : Rat) :
    (τ.span s).progress (τ.moment onset) = s.progress onset := by
  simp only [progress, span_start, span_duration, moment_sub_moment, length_eq_zero,
    length_div_length]

/-- A gradual change of tempo measures time from the start of its phrase and in proportion to the
phrase. -/
theorem Span.stretch_retimed (s : Span) (amount : Rat) (e : Event) :
    (τ.span s).stretch amount (τ.event e) = τ.event (s.stretch amount e) := by
  rw [stretch, stretch, span_duration]
  by_cases empty : s.duration = 0
  · rw [if_pos (length_eq_zero.2 empty), if_pos empty]
  · rw [if_neg (length_eq_zero.not.2 empty), if_neg empty]
    -- A length times the rate of change does not depend on how both are measured.
    have share (d : Rat) :
        τ.length d * (amount / τ.length s.duration) = d * (amount / s.duration) := by
      rw [mul_div_left_comm, length_div_length, mul_div_left_comm]
    have both (offset d : Rat) : 2 * τ.length offset + τ.length d = τ.length (2 * offset + d) := by
      simp only [length]
      ring
    simp only [span_start, event, moment_sub_moment, both, share, moment_add, length_mul]

namespace Event

/-! ## Order -/

theorem noLater_retimed (first second : Event) :
    (τ.event first).noLater (τ.event second) = first.noLater second :=
  decide_eq_decide.2 moment_le_moment

theorem sort_retimed (events : List Event) :
    sort (events.map τ.event) = (sort events).map τ.event :=
  sort_map noLater_retimed events

theorem later_retimed (s t : Rat) :
    Performance.later (τ.moment s) (τ.moment t) = τ.moment (Performance.later s t) := by
  simp only [Performance.later, moment_lt_moment, apply_ite τ.moment]

/-- The latest of some moments that are retimed with the events. -/
theorem foldl_later_retimed {point : Event → Rat}
    (moved : ∀ e, point (τ.event e) = τ.moment (point e)) (latest : Rat) :
    (events.map τ.event).foldl (fun latest e => Performance.later latest (point e))
        (τ.moment latest) =
      τ.moment (events.foldl (fun latest e => Performance.later latest (point e)) latest) := by
  rw [List.foldl_map]
  apply List.foldl_hom τ.moment
  intro latest e
  rw [moved, later_retimed]

/-! ## Slurs and pedals -/

theorem lastOnset?_retimed (events : List Event) :
    lastOnset? (events.map τ.event) = (lastOnset? events).map τ.moment := by
  cases events with
  | nil => rfl
  | cons first others => exact congrArg some (foldl_later_retimed event_onset first.onset)

theorem slur_retimed (events : List Event) (fraction : Rat) :
    slur (events.map τ.event) fraction = (slur events fraction).map τ.event := by
  rw [slur, slur, lastOnset?_retimed]
  cases lastOnset? events with
  | none => rfl
  | some last =>
      simp only [Option.map_some, List.map_map]
      apply List.map_congr_left
      intro e member
      simp only [Function.comp_apply, event_onset, moment_lt_moment]
      split
      · rw [event, event, ← length_mul]
      · rfl

theorem endTime_retimed {first : Event} {others : List Event} (duration : Rat) :
    (Performance.mk ((first :: others).map τ.event) duration).endTime =
      τ.moment (Performance.mk (first :: others) duration).endTime := by
  simp only [Performance.endTime, List.map_cons, event_finish]
  exact foldl_later_retimed event_finish first.finish

theorem pedal_retimed (events : List Event) :
    pedal (events.map τ.event) = (pedal events).map τ.event := by
  cases events with
  | nil => rfl
  | cons first others =>
      have finish : (Performance.mk (τ.event first :: others.map τ.event) 0).endTime =
          τ.moment (Performance.mk (first :: others) 0).endTime := endTime_retimed 0
      simp only [pedal, List.map_cons, List.map_map, Function.comp_def, finish, event_onset,
        moment_sub_moment]
      rfl

/-! ## Ornaments of single events -/

theorem alternate_retimed (e : Event) (other : Int) (durations : List Rat) :
    (τ.event e).alternate other (durations.map τ.length) =
      (e.alternate other durations).map τ.event := by
  induction durations generalizing e other with
  | nil => rfl
  | cons duration rest ih =>
      have next := ih { e with onset := e.onset + duration, pitch := other } e.pitch
      simp only [event, moment_add] at next
      simp only [List.map_cons, alternate, event, next]

theorem evenPieces?_retimed [Limits] (total : Rat) (count : Int) :
    evenPieces? (τ.length total) count = List.map τ.length <$> evenPieces? total count := by
  rw [evenPieces?, evenPieces?]
  cases partCount count with
  | error excess => rfl
  | ok number => simp [Except.map, evenPieces, length_div]

theorem piecesOfLength?_retimed [Limits] (unstretched : τ.factor = 1) (total length : Rat) :
    piecesOfLength? (τ.length total) length =
      List.map τ.length <$> piecesOfLength? total length := by
  have same : τ.length = id := funext (length_of_factor unstretched)
  rw [same, List.map_id_fun, id_map, id]

/-- The pieces of a trill are stretched with the whole, unless their length is given: then it can
only be moved. -/
theorem trillPieces_retimed [Limits] {speed : TrillSpeed} (elastic : speed.Elastic ∨ τ.factor = 1)
    (total : Rat) :
    trillPieces (τ.length total) speed = List.map τ.length <$> trillPieces total speed := by
  cases speed with
  | byLength length => exact piecesOfLength?_retimed (elastic.resolve_left id) total length.val
  | byCount count pos => exact evenPieces?_retimed total count

theorem trill_retimed [Limits] {speed : TrillSpeed} (elastic : speed.Elastic ∨ τ.factor = 1)
    (e : Event)
    (key : Key) : (τ.event e).trill key speed = List.map τ.event <$> e.trill key speed := by
  rw [trill, trill, event_duration, trillPieces_retimed elastic]
  cases trillPieces e.duration speed with
  | error excess => rfl
  | ok durations => exact congrArg Except.ok (alternate_retimed e _ durations)

theorem trillAll_retimed [Limits] {speed : TrillSpeed} (elastic : speed.Elastic ∨ τ.factor = 1)
    (events : List Event) (key : Key) :
    trillAll (events.map τ.event) key speed = List.map τ.event <$> trillAll events key speed :=
  trillAll_map (fun e => trill_retimed elastic e key) events

theorem MordentShape.pieces_retimed (shape : MordentShape) (total : Rat) :
    shape.pieces (τ.length total) = (shape.pieces total).map τ.length := by
  cases shape <;> simp [pieces, length_div, length_mul]

theorem mordent_retimed (e : Event) (neighbour : Int) (shape : MordentShape) :
    (τ.event e).mordent neighbour shape = (e.mordent neighbour shape).map τ.event := by
  rw [mordent, mordent, event_duration, shape.pieces_retimed, alternate_retimed]

theorem mordents_retimed (events : List Event) (neighbour : Int → Int) (shape : MordentShape) :
    ((events.map τ.event).flatMap fun e => e.mordent (neighbour e.pitch) shape) =
      (events.flatMap fun e => e.mordent (neighbour e.pitch) shape).map τ.event := by
  simp only [List.flatMap_map, List.map_flatMap, mordent_retimed, event_pitch]

/-! ## Chords -/

/-- Notes form the same chords before and after, since different chords keep different keys. -/
theorem chords_retimed (events : List Event) :
    chords (events.map τ.event) = (chords events).map (List.map τ.event) := by
  have injective : Function.Injective (Prod.map τ.moment τ.length) :=
    Function.Injective.prodMap (fun _ _ => moment_inj.1) (fun _ _ => length_inj.1)
  apply chords_map injective
  intro e
  rfl

theorem slices_retimed (onset step : Rat) (events : List Event) :
    slices (τ.moment onset) (τ.length step) (events.map τ.event) =
      (slices onset step events).map τ.event := by
  induction events generalizing onset with
  | nil => rfl
  | cons e rest ih =>
      simp only [List.map_cons, slices, ← moment_add, ih]
      rfl

/-- A chord is ordered by its pitches alone. -/
theorem rollChord_retimed (direction : Direction) (chord : List Event) :
    rollChord direction (chord.map τ.event) = (rollChord direction chord).map τ.event := by
  apply rollChord_map
  · intro first second
    cases direction <;> rfl
  · intro e number chord
    rw [event_onset, event_duration, ← length_div, slices_retimed]

theorem arpeggio_retimed (direction : Direction) (events : List Event) :
    arpeggio direction (events.map τ.event) = (arpeggio direction events).map τ.event := by
  rw [arpeggio, arpeggio, ← sort_retimed, chords_retimed, List.flatMap_map, List.map_flatMap]
  simp only [rollChord_retimed]

end Event

end MusicAlgebra
