import Mathlib.Algebra.Order.BigOperators.Group.List
import MusicAlgebra.Proofs.PlayableEvents

/-!
# Events inside a span

An event lies inside a span if it begins and stops sounding within it.  Ornaments that split an
event tile its time, so their pieces lie inside whatever the event lies inside; the other effects of
a phrase shorten events or reach for the end of one of them.  A change of tempo moves the end of the
span along with the events: as long as it does not speed up by more than one half, it needs no care
to keep events from being turned round.
-/

namespace MusicAlgebra

open Outcome

/-! ## Pieces of a length -/

theorem sum_evenPieces (total : Rat) {count : Nat} (pos : 0 < count) :
    (evenPieces total count).sum = total := by
  have counted : (count : Rat) ≠ 0 := Nat.cast_ne_zero.2 pos.ne'
  rw [evenPieces, List.sum_replicate, nsmul_eq_mul, mul_div_cancel₀ _ counted]

theorem sum_piecesOfLength {total length : Rat} (nonneg : 0 ≤ total) (pos : 0 < length) :
    (piecesOfLength total length).sum = total := by
  have whole : ((total / length).floor.toNat : Rat) = (total / length).floor := by
    have floor_nonneg : 0 ≤ (total / length).floor := Rat.le_floor_iff.2 (div_nonneg nonneg pos.le)
    exact_mod_cast Int.toNat_of_nonneg floor_nonneg
  rw [piecesOfLength, List.sum_append, List.sum_replicate, nsmul_eq_mul, whole]
  split
  · rename_i exact
    rw [List.sum_nil, add_zero]
    exact (sub_eq_zero.1 exact).symm
  · rw [List.sum_singleton, add_sub_cancel]

theorem sum_of_evenPieces? [Limits] {total : Rat} {count : Nat} (pos : 0 < count)
    {pieces : List Rat}
    (split : evenPieces? total count = .ok pieces) : pieces.sum = total := by
  obtain ⟨number, granted, rfl⟩ := map_eq_ok.1 split
  rw [(partCount_eq_ok granted).1, Int.toNat_natCast, sum_evenPieces total pos]

theorem sum_of_piecesOfLength? [Limits] {total length : Rat} (nonneg : 0 ≤ total) (pos : 0 < length)
    {pieces : List Rat} (split : piecesOfLength? total length = .ok pieces) :
    pieces.sum = total := by
  obtain ⟨number, -, rfl⟩ := map_eq_ok.1 split
  exact sum_piecesOfLength nonneg pos

theorem Event.MordentShape.sum_pieces (shape : MordentShape) (total : Rat) :
    (shape.pieces total).sum = total := by
  cases shape with
  | single | double =>
      simp only [pieces, List.sum_cons, List.sum_nil]
      ring

/-! ## Spans -/

namespace Span

variable {s : Span} {amount : Rat}

/-- The moment at which a span is over. -/
def finish (s : Span) : Rat := s.start + s.duration

/-- By how much a change of tempo multiplies the offset of an event, unless it is held. -/
def offsetFactor (s : Span) (amount : Rat) (e : Event) : Rat :=
  1 + (e.onset - s.start) * (amount / s.duration)

/-- By how much a change of tempo multiplies the length of an event, unless it is held. -/
def lengthFactor (s : Span) (amount : Rat) (e : Event) : Rat :=
  1 + (2 * (e.onset - s.start) + e.duration) * (amount / s.duration)

/-- A change of tempo that holds no event. -/
def stretchFreely (s : Span) (amount : Rat) (e : Event) : Event :=
  if s.duration = 0 then e
  else
    { e with
      onset := s.start + (e.onset - s.start) * s.offsetFactor amount e
      duration := e.duration * s.lengthFactor amount e }

theorem stretch_eq_freely {e : Event} (offset : 0 ≤ s.offsetFactor amount e)
    (length : 0 ≤ s.lengthFactor amount e) : s.stretch amount e = s.stretchFreely amount e := by
  have offsetKept : nonnegative (s.offsetFactor amount e) = s.offsetFactor amount e :=
    if_pos offset
  have lengthKept : nonnegative (s.lengthFactor amount e) = s.lengthFactor amount e :=
    if_pos length
  rw [stretchFreely, ← offsetKept, ← lengthKept]
  rfl

/-- The limit of one half is what it takes: twice the length of the span is the largest distance
that occurs in a factor. -/
theorem factor_nonneg (lasts : 0 ≤ s.duration) (slow : -(1 / 2) ≤ amount) {distance : Rat}
    (nonneg : 0 ≤ distance) (near : distance ≤ 2 * s.duration) :
    0 ≤ 1 + distance * (amount / s.duration) := by
  rcases lasts.eq_or_lt with empty | pos
  · rw [← empty, div_zero, mul_zero, add_zero]
    exact zero_le_one
  · have share : distance / s.duration ≤ 2 := (div_le_iff₀ pos).2 near
    have share_nonneg : 0 ≤ distance / s.duration := div_nonneg nonneg pos.le
    have regrouped : distance * (amount / s.duration) = distance / s.duration * amount := by ring
    rw [regrouped]
    nlinarith only [share, share_nonneg, slow]

end Span

namespace Event

/-- An event that begins and stops sounding within a span. -/
structure Inside (s : Span) (e : Event) : Prop where
  begins : s.start ≤ e.onset
  lasts : 0 ≤ e.duration
  ends : e.finish ≤ s.finish

def AllInside (s : Span) (events : List Event) : Prop := ∀ e ∈ events, e.Inside s

/-- The time in which an event sounds. -/
def span (e : Event) : Span := ⟨e.onset, e.duration⟩

variable {s wider : Span} {e : Event} {events : List Event} {amount : Rat}

theorem Inside.widen (inside : e.Inside s) (begins : wider.start ≤ s.start)
    (ends : s.finish ≤ wider.finish) : e.Inside wider := by
  constructor
  · exact begins.trans inside.begins
  · exact inside.lasts
  · exact inside.ends.trans ends

theorem AllInside.widen (inside : AllInside s events) (begins : wider.start ≤ s.start)
    (ends : s.finish ≤ wider.finish) : AllInside wider events := by
  intro e member
  exact (inside e member).widen begins ends

/-- What lies inside the time of an event lies wherever the event does. -/
theorem Inside.trans {pieces : List Event} (whole : e.Inside s)
    (pieces_inside : AllInside e.span pieces) : AllInside s pieces :=
  pieces_inside.widen whole.begins whole.ends

theorem AllInside.map {change : Event → Event} {changed : Span}
    (keeps : ∀ e, e.Inside s → (change e).Inside changed) (inside : AllInside s events) :
    AllInside changed (events.map change) := by
  intro e member
  obtain ⟨source, sourceMem, rfl⟩ := List.mem_map.1 member
  exact keeps source (inside source sourceMem)

theorem AllInside.sort (inside : AllInside s events) : AllInside s (sort events) := by
  intro e member
  exact inside e (mem_sort.1 member)

theorem AllInside.append {others : List Event} (first : AllInside s events)
    (second : AllInside s others) : AllInside s (events ++ others) := by
  intro e member
  rcases List.mem_append.1 member with member | member
  · exact first e member
  · exact second e member

theorem Inside.distance_le (inside : e.Inside s) : e.onset - s.start + e.duration ≤ s.duration := by
  have ends := inside.ends
  rw [finish, Span.finish] at ends
  linarith only [ends]

theorem Inside.span_nonneg (inside : e.Inside s) : 0 ≤ s.duration := by
  have begins := inside.begins
  have lasts := inside.lasts
  have ends := inside.distance_le
  linarith only [begins, lasts, ends]

/-! ## Effects on single events -/

theorem Inside.shortened (inside : e.Inside s) {fraction : Rat} (nonneg : 0 ≤ fraction)
    (le_one : fraction ≤ 1) : { e with duration := e.duration * fraction }.Inside s := by
  constructor
  · exact inside.begins
  · exact mul_nonneg inside.lasts nonneg
  · have shorter : e.duration * fraction ≤ e.duration := mul_le_of_le_one_right inside.lasts le_one
    have ends := inside.ends
    simp only [finish] at ends ⊢
    linarith only [shorter, ends]

/-- Where an event sounds does not depend on its pitch and its volume. -/
theorem Inside.recoloured (inside : e.Inside s) (pitch volume : Int) :
    { e with pitch, volume }.Inside s := by
  constructor
  · exact inside.begins
  · exact inside.lasts
  · exact inside.ends

theorem Inside.offsetFactor_nonneg (inside : e.Inside s) (slow : -(1 / 2) ≤ amount) :
    0 ≤ s.offsetFactor amount e := by
  have begins := inside.begins
  have lasts := inside.lasts
  have ends := inside.distance_le
  apply Span.factor_nonneg inside.span_nonneg slow
  · linarith only [begins]
  · linarith only [begins, lasts, ends]

theorem Inside.lengthFactor_nonneg (inside : e.Inside s) (slow : -(1 / 2) ≤ amount) :
    0 ≤ s.lengthFactor amount e := by
  have begins := inside.begins
  have lasts := inside.lasts
  have ends := inside.distance_le
  apply Span.factor_nonneg inside.span_nonneg slow
  · linarith only [begins, lasts]
  · linarith only [lasts, ends]

/-- The end of an event is moved by the same rule as its beginning. -/
theorem Span.finish_stretchFreely (pos : 0 < s.duration) :
    (s.stretchFreely amount e).finish =
      s.start + (e.finish - s.start) * (1 + (e.finish - s.start) * (amount / s.duration)) := by
  rw [Span.stretchFreely, if_neg pos.ne']
  simp only [finish, Span.offsetFactor, Span.lengthFactor]
  ring

/-- A change of tempo moves the end of the span along, and events stay before it. -/
theorem Inside.stretched (inside : e.Inside s) (slow : -(1 / 2) ≤ amount) :
    (s.stretch amount e).Inside ⟨s.start, s.duration * (1 + amount)⟩ := by
  have offset := inside.offsetFactor_nonneg slow
  have length := inside.lengthFactor_nonneg slow
  rw [Span.stretch_eq_freely offset length]
  rcases inside.span_nonneg.eq_or_lt with empty | pos
  · rw [Span.stretchFreely, if_pos empty.symm]
    apply inside.widen
    · exact le_rfl
    · simp [Span.finish, ← empty]
  · constructor
    · rw [Span.stretchFreely, if_neg pos.ne']
      exact le_add_of_nonneg_right (mul_nonneg (sub_nonneg.2 inside.begins) offset)
    · rw [Span.stretchFreely, if_neg pos.ne']
      exact mul_nonneg inside.lasts length
    · rw [Span.finish_stretchFreely pos, Span.finish]
      -- what is left of the span behind the event is multiplied by a factor as well
      have ends := inside.ends
      have nonneg : 0 ≤ e.finish - s.start + s.duration := by
        have begins := inside.begins
        have lasts := inside.lasts
        rw [finish]
        linarith only [begins, lasts, pos]
      have near : e.finish - s.start + s.duration ≤ 2 * s.duration := by
        rw [Span.finish] at ends
        linarith only [ends]
      have factor := Span.factor_nonneg inside.span_nonneg slow nonneg near
      have left : s.start + s.duration * (1 + amount) -
          (s.start + (e.finish - s.start) * (1 + (e.finish - s.start) * (amount / s.duration))) =
            (s.finish - e.finish) *
              (1 + (e.finish - s.start + s.duration) * (amount / s.duration)) := by
        rw [Span.finish]
        field_simp
        ring
      apply sub_nonneg.1
      rw [left]
      exact mul_nonneg (sub_nonneg.2 ends) factor

/-! ## Ornaments of single events -/

/-- Alternating pieces follow each other. -/
theorem alternate_inside {durations : List Rat} (nonneg : ∀ duration ∈ durations, 0 ≤ duration)
    (e : Event) (other : Int) :
    AllInside ⟨e.onset, durations.sum⟩ (e.alternate other durations) := by
  induction durations generalizing e other with
  | nil =>
      intro piece member
      cases member
  | cons duration durations ih =>
      have lasts := nonneg duration List.mem_cons_self
      have others : ∀ later ∈ durations, 0 ≤ later := by
        intro later laterMem
        exact nonneg later (List.mem_cons_of_mem duration laterMem)
      have total := List.sum_nonneg others
      intro piece member
      rcases List.mem_cons.1 member with rfl | member
      · constructor
        · exact le_rfl
        · exact lasts
        · simp only [finish, Span.finish, List.sum_cons]
          linarith only [total]
      · apply (ih others _ e.pitch piece member).widen
        · exact le_add_of_nonneg_right lasts
        · simp only [Span.finish, List.sum_cons]
          linarith only

theorem trill_inside [Limits] {key : Key} {speed : TrillSpeed} {pieces : List Event}
    (lasts : 0 ≤ e.duration)
    (trilled : trill e key speed = .ok pieces) : AllInside e.span pieces := by
  obtain ⟨durations, split, rfl⟩ := map_eq_ok.1 trilled
  cases speed with
  | byLength length =>
      rw [span, ← sum_of_piecesOfLength? lasts length.pos split]
      exact alternate_inside (nonneg_of_piecesOfLength? length.pos split) e _
  | byCount count pos =>
      rw [span, ← sum_of_evenPieces? pos split]
      exact alternate_inside (nonneg_of_evenPieces? lasts split) e _

theorem AllInside.trillAll [Limits] {key : Key} {speed : TrillSpeed} {pieces : List Event}
    (inside : AllInside s events) (trilled : trillAll events key speed = .ok pieces) :
    AllInside s pieces := by
  obtain ⟨parts, traversed, rfl⟩ := map_eq_ok.1 trilled
  intro piece member
  obtain ⟨part, partMem, pieceMem⟩ := List.mem_flatten.1 member
  obtain ⟨source, sourceMem, played⟩ := exists_of_mem_mapM traversed partMem
  have whole := inside source sourceMem
  exact whole.trans (trill_inside whole.lasts played) piece pieceMem

theorem Inside.mordent (inside : e.Inside s) (neighbour : Int) (shape : MordentShape) :
    AllInside s (mordent e neighbour shape) := by
  apply inside.trans
  have pieces := alternate_inside (shape.pieces_nonneg inside.lasts) e neighbour
  rwa [shape.sum_pieces] at pieces

theorem AllInside.mordents (inside : AllInside s events) (neighbour : Event → Int)
    (shape : MordentShape) :
    AllInside s (events.flatMap fun e => e.mordent (neighbour e) shape) := by
  intro piece member
  obtain ⟨source, sourceMem, pieceMem⟩ := List.mem_flatMap.1 member
  exact (inside source sourceMem).mordent (neighbour source) shape piece pieceMem

/-! ## Effects on whole phrases -/

theorem AllInside.slur (inside : AllInside s events) {fraction : Rat} (nonneg : 0 ≤ fraction)
    (le_one : fraction ≤ 1) : AllInside s (slur events fraction) := by
  rw [Event.slur]
  split
  · exact inside
  · apply inside.map
    intro e inside
    split
    · exact inside.shortened nonneg le_one
    · exact inside

theorem foldl_max_le {moment : Event → Rat} {bound : Rat} (bounded : ∀ e ∈ events, moment e ≤ bound)
    {latest : Rat} (started : latest ≤ bound) :
    events.foldl (fun latest e => max latest (moment e)) latest ≤ bound := by
  induction events generalizing latest with
  | nil => exact started
  | cons first others ih =>
      apply ih
      · intro e member
        exact bounded e (List.mem_cons_of_mem first member)
      · exact max_le started (bounded first List.mem_cons_self)

/-- The latest end of some events is no later than any bound of their ends. -/
theorem endTime_le {bound : Rat} (bounded : ∀ e ∈ events, e.finish ≤ bound) (duration : Rat)
    (member : e ∈ events) : (Performance.mk events duration).endTime ≤ bound := by
  cases events with
  | nil => cases member
  | cons first others =>
      simp only [Performance.endTime, Performance.later_eq_max]
      apply foldl_max_le
      · intro e member
        exact bounded e (List.mem_cons_of_mem first member)
      · exact bounded first List.mem_cons_self

theorem AllInside.pedal (inside : AllInside s events) : AllInside s (pedal events) := by
  intro e member
  cases events with
  | nil => cases member
  | cons first others =>
      obtain ⟨source, sourceMem, rfl⟩ := List.mem_map.1 member
      have held := finish_le_endTime 0 sourceMem
      have bounded := endTime_le (fun e member => (inside e member).ends) 0 sourceMem
      have lasts := (inside source sourceMem).lasts
      constructor
      · exact (inside source sourceMem).begins
      · exact sub_nonneg.2 ((le_add_of_nonneg_right lasts).trans held)
      · rwa [finish, add_sub_cancel]

/-- The slices of a chord follow each other. -/
theorem slices_inside {step : Rat} (lasts : 0 ≤ step) (onset : Rat) (events : List Event) :
    AllInside ⟨onset, events.length * step⟩ (slices onset step events) := by
  induction events generalizing onset with
  | nil =>
      intro piece member
      cases member
  | cons first others ih =>
      have total : 0 ≤ others.length * step := mul_nonneg (Nat.cast_nonneg _) lasts
      intro piece member
      rcases List.mem_cons.1 member with rfl | member
      · constructor
        · exact le_rfl
        · exact lasts
        · simp only [finish, Span.finish, List.length_cons, Nat.cast_add, Nat.cast_one]
          linarith only [total]
      · apply (ih (onset + step) piece member).widen
        · exact le_add_of_nonneg_right lasts
        · simp only [Span.finish, List.length_cons, Nat.cast_add, Nat.cast_one]
          linarith only

theorem AllInside.rollChord (inside : AllInside s events) (direction : Direction) :
    AllInside s (rollChord direction events) := by
  unfold Event.rollChord
  split
  · rename_i first second others
    split
    · have head := inside first List.mem_cons_self
      apply head.trans
      -- all slices together take the time of the first note
      have slices := slices_inside (div_nonneg head.lasts
        (Nat.cast_nonneg (first :: second :: others).length)) first.onset
        ((first :: second :: others).mergeSort direction.inOrder)
      rwa [List.length_mergeSort, mul_div_cancel₀ _ (Nat.cast_ne_zero.2 (Nat.succ_ne_zero _))]
        at slices
    · exact inside
  · exact inside

theorem AllInside.arpeggio (inside : AllInside s events) (direction : Direction) :
    AllInside s (arpeggio direction events) := by
  apply AllInside.sort
  intro e member
  obtain ⟨chord, chordMem, rolled⟩ := List.mem_flatMap.1 member
  obtain ⟨key, -, rfl⟩ := List.mem_map.1 chordMem
  have together : AllInside s (events.filter (·.chordKey == key)) := by
    intro note noteMem
    exact inside note (List.mem_of_mem_filter noteMem)
  exact together.rollChord direction e rolled

end Event

end MusicAlgebra
