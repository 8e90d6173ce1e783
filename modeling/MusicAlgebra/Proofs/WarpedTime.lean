import Mathlib.Order.Interval.Set.Defs
import MusicAlgebra.Proofs.ContainedEvents
import MusicAlgebra.Proofs.EventOrder

/-!
# Warped time

A ritardando and an accelerando compute the new onset and the new duration of an event by two
formulas.  Both come from one map of the moments of the phrase: the beginning and the end of an
event are moved by it alike.  As long as the change does not speed up by more than one half the map
is strictly increasing on the phrase, so events keep their order, and those that touch or overlap
still do.  Only events that begin and end within the phrase are moved like this: past the phrase the
map turns back, which is where events are held.
-/

namespace MusicAlgebra

variable {s : Span} {amount : Rat} {e other : Event} {events : List Event}

namespace Span

/-- The moments from the beginning of a span to its end. -/
def moments (s : Span) : Set Rat := Set.Icc s.start s.finish

/-- Where a gradual change of tempo moves a moment. -/
def warp (s : Span) (amount moment : Rat) : Rat :=
  s.start + (moment - s.start) * (1 + amount * (moment - s.start) / s.duration)

theorem warp_start (s : Span) (amount : Rat) : s.warp amount s.start = s.start := by
  rw [warp, sub_self, zero_mul, add_zero]

theorem warp_finish (lasts : 0 < s.duration) :
    s.warp amount s.finish = s.start + s.duration * (1 + amount) := by
  rw [warp, finish, add_sub_cancel_left, mul_div_cancel_right₀ _ lasts.ne']

/-- How far two moments are apart after the change. -/
theorem warp_sub_warp (s : Span) (amount first second : Rat) :
    s.warp amount second - s.warp amount first =
      (second - first) *
        (1 + (first - s.start + (second - s.start)) * (amount / s.duration)) := by
  simp only [warp]
  ring

/-- At the limit of one half the factor vanishes only at the very end of the span. -/
theorem factor_pos (lasts : 0 < s.duration) (slow : -(1 / 2) ≤ amount) {distance : Rat}
    (nonneg : 0 ≤ distance) (near : distance < 2 * s.duration) :
    0 < 1 + distance * (amount / s.duration) := by
  have share : distance / s.duration < 2 := (div_lt_iff₀ lasts).2 near
  have share_nonneg : 0 ≤ distance / s.duration := div_nonneg nonneg lasts.le
  have regrouped : distance * (amount / s.duration) = distance / s.duration * amount := by ring
  rw [regrouped]
  nlinarith only [share, share_nonneg, slow]

theorem warp_strictMonoOn (lasts : 0 < s.duration) (slow : -(1 / 2) ≤ amount) :
    StrictMonoOn (s.warp amount) s.moments := by
  rintro first ⟨begun, -⟩ second ⟨-, ended⟩ order
  rw [finish] at ended
  apply sub_pos.1
  rw [warp_sub_warp]
  apply mul_pos (sub_pos.2 order)
  apply factor_pos lasts slow
  · linarith only [begun, order]
  · linarith only [ended, order]

theorem warp_mem (lasts : 0 < s.duration) (slow : -(1 / 2) ≤ amount) {moment : Rat}
    (inside : moment ∈ s.moments) :
    s.warp amount moment ∈ (Span.mk s.start (s.duration * (1 + amount))).moments := by
  have increasing := (warp_strictMonoOn lasts slow).monotoneOn
  have long : s.start ≤ s.finish := le_add_of_nonneg_right lasts.le
  constructor
  · have from_start := increasing ⟨le_rfl, long⟩ inside inside.1
    rwa [warp_start] at from_start
  · have to_finish := increasing inside ⟨long, le_rfl⟩ inside.2
    rwa [warp_finish lasts] at to_finish

end Span

namespace Event

/-- An event that begins and ends within a span.  If it has a length that is not negative, it is
enough that it does not begin before the span and does not end after it. -/
structure Within (s : Span) (e : Event) : Prop where
  begins : e.onset ∈ s.moments
  ends : e.finish ∈ s.moments

theorem Inside.within (inside : e.Inside s) : e.Within s := by
  have begins := inside.begins
  have lasts := inside.lasts
  have ends := inside.ends
  have order : e.onset ≤ e.finish := le_add_of_nonneg_right lasts
  exact ⟨⟨begins, order.trans ends⟩, ⟨begins.trans order, ends⟩⟩

/-- One event touches another one that begins where it ends. -/
def Touches (e other : Event) : Prop := e.finish = other.onset

/-- Two events overlap if each begins before the other one ends. -/
def Overlaps (e other : Event) : Prop := e.onset < other.finish ∧ other.onset < e.finish

instance (e other : Event) : Decidable (e.Touches other) := inferInstanceAs (Decidable (_ = _))

instance (e other : Event) : Decidable (e.Overlaps other) := inferInstanceAs (Decidable (_ ∧ _))

theorem duration_pos_iff {e : Event} : 0 < e.duration ↔ e.onset < e.finish :=
  (lt_add_iff_pos_right e.onset).symm

namespace Within

variable (within : e.Within s) (otherWithin : other.Within s) (lasts : 0 < s.duration)
  (slow : -(1 / 2) ≤ amount)

include within lasts slow

theorem offsetFactor_nonneg : 0 ≤ s.offsetFactor amount e := by
  obtain ⟨begun, before⟩ := within.begins
  rw [Span.finish] at before
  apply Span.factor_nonneg lasts.le slow
  · exact sub_nonneg.2 begun
  · linarith only [before, lasts]

theorem lengthFactor_nonneg : 0 ≤ s.lengthFactor amount e := by
  obtain ⟨begun, before⟩ := within.begins
  obtain ⟨ending, ended⟩ := within.ends
  rw [finish] at ending ended
  rw [Span.finish] at before ended
  apply Span.factor_nonneg lasts.le slow
  · linarith only [begun, ending]
  · linarith only [before, ended]

/-- The beginning and the end of an event are moved by the same map. -/
theorem stretch_eq :
    s.stretch amount e =
      { e with
        onset := s.warp amount e.onset
        duration := s.warp amount e.finish - s.warp amount e.onset } := by
  have offset := within.offsetFactor_nonneg lasts slow
  have length := within.lengthFactor_nonneg lasts slow
  have moved : s.start + (e.onset - s.start) * s.offsetFactor amount e = s.warp amount e.onset := by
    simp only [Span.offsetFactor, Span.warp]
    ring
  have lengthened : e.duration * s.lengthFactor amount e =
      s.warp amount e.finish - s.warp amount e.onset := by
    rw [Span.warp_sub_warp, Span.lengthFactor, finish]
    ring
  rw [Span.stretch_eq_freely offset length, Span.stretchFreely, if_neg lasts.ne', moved, lengthened]

theorem onset_stretch : (s.stretch amount e).onset = s.warp amount e.onset := by
  rw [within.stretch_eq lasts slow]

theorem finish_stretch : (s.stretch amount e).finish = s.warp amount e.finish := by
  rw [within.stretch_eq lasts slow]
  exact add_sub_cancel _ _

theorem duration_stretch_pos : 0 < (s.stretch amount e).duration ↔ 0 < e.duration := by
  rw [duration_pos_iff, duration_pos_iff, within.onset_stretch lasts slow,
    within.finish_stretch lasts slow]
  exact (Span.warp_strictMonoOn lasts slow).lt_iff_lt within.begins within.ends

theorem stretched : (s.stretch amount e).Within ⟨s.start, s.duration * (1 + amount)⟩ := by
  constructor
  · rw [within.onset_stretch lasts slow]
    exact Span.warp_mem lasts slow within.begins
  · rw [within.finish_stretch lasts slow]
    exact Span.warp_mem lasts slow within.ends

include otherWithin

theorem onset_stretch_le :
    (s.stretch amount e).onset ≤ (s.stretch amount other).onset ↔ e.onset ≤ other.onset := by
  rw [within.onset_stretch lasts slow, otherWithin.onset_stretch lasts slow]
  exact (Span.warp_strictMonoOn lasts slow).le_iff_le within.begins otherWithin.begins

theorem touches_stretch :
    (s.stretch amount e).Touches (s.stretch amount other) ↔ e.Touches other := by
  rw [Touches, within.finish_stretch lasts slow, otherWithin.onset_stretch lasts slow]
  exact (Span.warp_strictMonoOn lasts slow).eq_iff_eq within.ends otherWithin.begins

theorem overlaps_stretch :
    (s.stretch amount e).Overlaps (s.stretch amount other) ↔ e.Overlaps other := by
  have increasing := Span.warp_strictMonoOn lasts slow
  rw [Overlaps, within.onset_stretch lasts slow, within.finish_stretch lasts slow,
    otherWithin.onset_stretch lasts slow, otherWithin.finish_stretch lasts slow]
  exact and_congr (increasing.lt_iff_lt within.begins otherWithin.ends)
    (increasing.lt_iff_lt otherWithin.begins within.ends)

end Within

end Event

/-- A gradual change of tempo is one strictly increasing map of the moments of its phrase, by which
the beginnings and the ends of all events are moved.  No event is held; events keep their order,
touch and overlap as before, and keep a positive length; they lie in the changed phrase, and those
that end with the phrase still do. -/
theorem Span.stretch_warps (lasts : 0 < s.duration) (slow : -(1 / 2) ≤ amount)
    (within : ∀ e ∈ events, e.Within s) :
    StrictMonoOn (s.warp amount) (Set.Icc s.start (s.start + s.duration)) ∧
      (∀ e ∈ events, 0 ≤ s.offsetFactor amount e ∧ 0 ≤ s.lengthFactor amount e ∧
        s.stretch amount e = s.stretchFreely amount e) ∧
      (∀ e ∈ events,
        (s.stretch amount e).onset = s.warp amount e.onset ∧
          (s.stretch amount e).finish = s.warp amount e.finish ∧
          (s.stretch amount e).pitch = e.pitch ∧ (s.stretch amount e).volume = e.volume ∧
          (s.stretch amount e).instrument = e.instrument) ∧
      (∀ e ∈ events, ∀ other ∈ events,
        ((s.stretch amount e).onset ≤ (s.stretch amount other).onset ↔ e.onset ≤ other.onset) ∧
          ((s.stretch amount e).Touches (s.stretch amount other) ↔ e.Touches other) ∧
          ((s.stretch amount e).Overlaps (s.stretch amount other) ↔ e.Overlaps other)) ∧
      Event.sort (events.map (s.stretch amount)) = (Event.sort events).map (s.stretch amount) ∧
      (∀ e ∈ events, 0 < (s.stretch amount e).duration ↔ 0 < e.duration) ∧
      (∀ e ∈ events, (s.stretch amount e).Within ⟨s.start, s.duration * (1 + amount)⟩) ∧
      ∀ e ∈ events, e.finish = s.start + s.duration →
        (s.stretch amount e).finish = s.start + s.duration * (1 + amount) := by
  refine ⟨warp_strictMonoOn lasts slow, ?_, ?_, ?_, ?_, ?_, ?_, ?_⟩
  · intro e member
    have offset := (within e member).offsetFactor_nonneg lasts slow
    have length := (within e member).lengthFactor_nonneg lasts slow
    exact ⟨offset, length, stretch_eq_freely offset length⟩
  · intro e member
    rw [(within e member).stretch_eq lasts slow]
    exact ⟨rfl, add_sub_cancel _ _, rfl, rfl, rfl⟩
  · intro e member other otherMem
    have inside := within e member
    have otherInside := within other otherMem
    exact ⟨inside.onset_stretch_le otherInside lasts slow,
      inside.touches_stretch otherInside lasts slow, inside.overlaps_stretch otherInside lasts slow⟩
  · refine (List.map_mergeSort fun e member other otherMem => ?_).symm
    exact decide_eq_decide.2
      ((within e member).onset_stretch_le (within other otherMem) lasts slow).symm
  · exact fun e member => (within e member).duration_stretch_pos lasts slow
  · exact fun e member => (within e member).stretched lasts slow
  · intro e member ends
    rw [(within e member).finish_stretch lasts slow, ends]
    exact warp_finish lasts

/-- A note that rings into the one after it. -/
def ringingNote : Event := ⟨1, 3 / 2, 60, 100, "violin"⟩

def passingNote : Event := ⟨2, 1 / 2, 64, 90, "violin"⟩

/-- A note that begins where the one before it ends, and ends with the phrase. -/
def closingNote : Event := ⟨5 / 2, 1 / 2, 67, 80, "violin"⟩

/-- As fast as it may become: the phrase takes half of its time. -/
theorem closingNote_warped :
    let s : Span := ⟨1, 2⟩
    let amount : Rat := -(1 / 2)
    0 < s.duration ∧ -(1 / 2) ≤ amount ∧
      (∀ e ∈ [ringingNote, passingNote, closingNote], e.Within s) ∧
      ringingNote.Overlaps passingNote ∧
      (s.stretch amount ringingNote).Overlaps (s.stretch amount passingNote) ∧
      passingNote.Touches closingNote ∧
      (s.stretch amount passingNote).Touches (s.stretch amount closingNote) ∧
      closingNote.finish = 1 + 2 ∧
      (s.stretch amount closingNote).finish = 1 + 2 * (1 + -(1 / 2)) := by
  intro s amount
  have lasts : 0 < s.duration := by decide +kernel
  have within : ∀ e ∈ [ringingNote, passingNote, closingNote], e.Within s := by
    have inside : ∀ e ∈ [ringingNote, passingNote, closingNote],
        s.start ≤ e.onset ∧ 0 ≤ e.duration ∧ e.finish ≤ s.finish := by decide +kernel
    intro e member
    obtain ⟨begins, long, ends⟩ := inside e member
    exact (Event.Inside.mk begins long ends).within
  have overlapping : ringingNote.Overlaps passingNote := by decide +kernel
  have touching : passingNote.Touches closingNote := by decide +kernel
  have ending : closingNote.finish = 1 + 2 := by decide +kernel
  have slow : -(1 / 2) ≤ amount := le_rfl
  obtain ⟨-, -, -, pairs, -, -, -, ends⟩ := Span.stretch_warps lasts slow within
  have first := (pairs ringingNote (by simp) passingNote (by simp)).2.2
  have second := (pairs passingNote (by simp) closingNote (by simp)).2.1
  exact ⟨lasts, slow, within, overlapping, first.2 overlapping, touching, second.2 touching,
    ending, ends closingNote (by simp) ending⟩

/-- An event of negative length that begins far behind the phrase and ends with its beginning. -/
def backwardEvent : Event := ⟨5, -5, 60, 100, "acoustic_grand_piano"⟩

/-- It is held at the beginning of the phrase, which is not where the map moves its onset. -/
theorem backwardEvent_held :
    0 < (Span.mk 0 1).duration ∧ -(1 / 2) ≤ (-(1 / 2) : Rat) ∧
      (Span.mk 0 1).start ≤ backwardEvent.onset ∧
      backwardEvent.finish ≤ (Span.mk 0 1).start + (Span.mk 0 1).duration ∧
      (Span.mk 0 1).offsetFactor (-(1 / 2)) backwardEvent < 0 ∧
      ((Span.mk 0 1).stretch (-(1 / 2)) backwardEvent).onset = 0 ∧
      (Span.mk 0 1).warp (-(1 / 2)) backwardEvent.onset = -(15 / 2) := by
  decide +kernel

end MusicAlgebra
