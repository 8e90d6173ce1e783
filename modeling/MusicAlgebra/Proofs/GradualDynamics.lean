import MusicAlgebra.Proofs.WarpedTime

/-!
# Gradual dynamics

A crescendo and a diminuendo multiply the volume of every event by a factor that changes evenly from
one end of the phrase to the other.  The product is cut down to an integer and held within the MIDI
range, and both keep the order of numbers.  So what becomes of the volumes is read off the order of
the factors: how far a volume can rise or fall from the factors at the two ends of the phrase, and
how two events compare from the factors at their onsets.
-/

namespace MusicAlgebra

open Outcome

namespace Volume

variable {volume other : Int} {factor greater : Rat}

/-- A volume multiplied by a factor, as an integer of the MIDI range. -/
def weighed (volume : Int) (factor : Rat) : Int := clamp (volume * factor).floor

theorem clamp_mono {m n : Int} (order : m ≤ n) : clamp m ≤ clamp n := by
  unfold clamp
  omega

theorem weighed_mono (loud : 0 ≤ other) (nonneg : 0 ≤ factor) (softer : volume ≤ other)
    (less : factor ≤ greater) : weighed volume factor ≤ weighed other greater := by
  apply clamp_mono
  apply Rat.floor_monotone
  exact mul_le_mul (Int.cast_le.2 softer) less nonneg (Int.cast_nonneg loud)

/-- Where nothing is negative, the clamp can only cut off what is too loud. -/
theorem weighed_eq_min (loud : 0 ≤ volume) (nonneg : 0 ≤ factor) :
    weighed volume factor = min 127 (volume * factor).floor := by
  have product : 0 ≤ (volume * factor).floor :=
    Rat.le_floor_iff.2 (mul_nonneg (Int.cast_nonneg loud) nonneg)
  rw [weighed, clamp]
  omega

theorem weighed_one (loud : 0 ≤ volume) (soft : volume ≤ 127) : weighed volume 1 = volume := by
  rw [weighed_eq_min loud zero_le_one, mul_one, Rat.floor_intCast, min_eq_right soft]

/-- A factor up to one makes no volume too loud. -/
theorem weighed_eq_floor (loud : 0 ≤ volume) (soft : volume ≤ 127) (nonneg : 0 ≤ factor)
    (le_one : factor ≤ 1) : weighed volume factor = (volume * factor).floor := by
  have fallen : (volume * factor).floor ≤ volume := by
    rw [← Rat.floor_intCast volume]
    exact Rat.floor_monotone (mul_le_of_le_one_right (Int.cast_nonneg loud) le_one)
  rw [weighed_eq_min loud nonneg, min_eq_right (fallen.trans soft)]

end Volume

/-! ## The way through a phrase -/

namespace Span

variable {s : Span} {moment later : Rat}

theorem duration_nonneg_of_mem (inside : moment ∈ s.moments) : 0 ≤ s.duration := by
  have long : s.start ≤ s.start + s.duration := inside.1.trans inside.2
  exact le_add_iff_nonneg_right s.start |>.1 long

theorem progress_mono (lasts : 0 ≤ s.duration) (order : moment ≤ later) :
    s.progress moment ≤ s.progress later := by
  rw [progress, progress]
  split
  · exact le_rfl
  · exact div_le_div_of_nonneg_right (sub_le_sub_right order s.start) lasts

theorem progress_nonneg (inside : moment ∈ s.moments) : 0 ≤ s.progress moment := by
  rw [progress]
  split
  · exact le_rfl
  · exact div_nonneg (sub_nonneg.2 inside.1) (duration_nonneg_of_mem inside)

theorem progress_le_one (inside : moment ∈ s.moments) : s.progress moment ≤ 1 := by
  rw [progress]
  split
  · exact zero_le_one
  · apply div_le_one_of_le₀ _ (duration_nonneg_of_mem inside)
    exact sub_le_iff_le_add'.2 inside.2

end Span

/-! ## Growing and fading -/

namespace Style

variable {events : List Event} {span : Span} {amount : Amount} {e later : Event}

/-- The factor of a crescendo at the onset of an event. -/
def growth (amount : Amount) (span : Span) (e : Event) : Rat :=
  1 + amount.val * span.progress e.onset

/-- The factor of a diminuendo at the onset of an event. -/
def decline (amount : Amount) (span : Span) (e : Event) : Rat :=
  Span.nonnegative (1 - amount.val * span.progress e.onset)

theorem growth_mono (lasts : 0 ≤ span.duration) (order : e.onset ≤ later.onset) :
    growth amount span e ≤ growth amount span later :=
  add_le_add_right (mul_le_mul_of_nonneg_left (Span.progress_mono lasts order) amount.nonneg) 1

/-- A crescendo begins at one and goes up to `1 + amount`. -/
theorem growth_mem (amount : Amount) (inside : e.onset ∈ span.moments) :
    1 ≤ growth amount span e ∧ growth amount span e ≤ 1 + amount.val := by
  have begun := mul_nonneg amount.nonneg (Span.progress_nonneg inside)
  have ended := mul_le_of_le_one_right amount.nonneg (Span.progress_le_one inside)
  exact ⟨le_add_of_nonneg_right begun, add_le_add_right ended 1⟩

/-- No diminuendo goes further down than to zero, so nothing has to be held there. -/
theorem decline_eq (le_one : amount.val ≤ 1) (inside : e.onset ∈ span.moments) :
    decline amount span e = 1 - amount.val * span.progress e.onset := by
  have spent := mul_le_one₀ le_one (Span.progress_nonneg inside) (Span.progress_le_one inside)
  exact if_pos (sub_nonneg.2 spent)

/-- A diminuendo begins at one and goes down to `1 - amount`. -/
theorem decline_mem (le_one : amount.val ≤ 1) (inside : e.onset ∈ span.moments) :
    1 - amount.val ≤ decline amount span e ∧ decline amount span e ≤ 1 := by
  have begun := mul_nonneg amount.nonneg (Span.progress_nonneg inside)
  have ended := mul_le_of_le_one_right amount.nonneg (Span.progress_le_one inside)
  rw [decline_eq le_one inside]
  exact ⟨sub_le_sub_left ended 1, sub_le_self 1 begun⟩

theorem decline_anti (le_one : amount.val ≤ 1) (inside : e.onset ∈ span.moments)
    (laterInside : later.onset ∈ span.moments) (order : e.onset ≤ later.onset) :
    decline amount span later ≤ decline amount span e := by
  rw [decline_eq le_one inside, decline_eq le_one laterInside]
  have lasts := Span.duration_nonneg_of_mem inside
  exact sub_le_sub_left
    (mul_le_mul_of_nonneg_left (Span.progress_mono lasts order) amount.nonneg) 1

section Volumes

variable (loud : 0 ≤ e.volume ∧ e.volume ≤ 127) (inside : e.onset ∈ span.moments)

include loud inside

theorem weighed_growth_mem :
    e.volume ≤ Volume.weighed e.volume (growth amount span e) ∧
      Volume.weighed e.volume (growth amount span e) ≤
        min 127 (e.volume * (1 + amount.val)).floor := by
  obtain ⟨audible, soft⟩ := loud
  obtain ⟨from_one, to_end⟩ := growth_mem amount inside
  have positive := zero_le_one.trans from_one
  have risen := Volume.weighed_mono audible zero_le_one le_rfl from_one
  have limited := Volume.weighed_mono audible positive le_rfl to_end
  rw [Volume.weighed_one audible soft] at risen
  rw [Volume.weighed_eq_min audible (positive.trans to_end)] at limited
  exact ⟨risen, limited⟩

theorem weighed_decline_mem (le_one : amount.val ≤ 1) :
    (e.volume * (1 - amount.val)).floor ≤ Volume.weighed e.volume (decline amount span e) ∧
      Volume.weighed e.volume (decline amount span e) ≤ e.volume := by
  obtain ⟨audible, soft⟩ := loud
  obtain ⟨to_end, from_one⟩ := decline_mem le_one inside
  have left := sub_nonneg.2 le_one
  have limited := Volume.weighed_mono audible left le_rfl to_end
  have fallen := Volume.weighed_mono audible (left.trans to_end) le_rfl from_one
  rw [Volume.weighed_eq_floor audible soft left (sub_le_self 1 amount.nonneg)] at limited
  rw [Volume.weighed_one audible soft] at fallen
  exact ⟨limited, fallen⟩

end Volumes

/-- A crescendo makes no event softer and none louder than at the end of the phrase, and a later
event that was as loud as an earlier one still is.  A diminuendo makes no event louder and none
softer than at the end of the phrase, and an earlier event that was as loud as a later one still is.
Neither changes anything else of an event, or the order of the events. -/
theorem gradual_dynamics_monotone [Limits] (loud : ∀ e ∈ events, 0 ≤ e.volume ∧ e.volume ≤ 127)
    (inside : ∀ e ∈ events, e.onset ∈ span.moments) (context : Context) :
    (∀ amount : Amount, ∃ grown : Event → Int,
      fancy.interpretPhrase events (.crescendo amount) context span =
          .ok (events.map fun e => { e with volume := grown e }) ∧
        (∀ e ∈ events, e.volume ≤ grown e ∧
          grown e ≤ min 127 (e.volume * (1 + amount.val)).floor) ∧
        ∀ e ∈ events, ∀ later ∈ events, e.onset ≤ later.onset → e.volume ≤ later.volume →
          grown e ≤ grown later) ∧
      ∀ (amount : Amount) (le_one : amount.val ≤ 1), ∃ faded : Event → Int,
        fancy.interpretPhrase events (.diminuendo amount le_one) context span =
            .ok (events.map fun e => { e with volume := faded e }) ∧
          (∀ e ∈ events, (e.volume * (1 - amount.val)).floor ≤ faded e ∧ faded e ≤ e.volume) ∧
          ∀ e ∈ events, ∀ later ∈ events, e.onset ≤ later.onset → later.volume ≤ e.volume →
            faded later ≤ faded e := by
  constructor
  · intro amount
    refine ⟨fun e => Volume.weighed e.volume (growth amount span e), rfl, ?_, ?_⟩
    · exact fun e member => weighed_growth_mem (loud e member) (inside e member)
    · intro e member later laterMember order softer
      have lasts := Span.duration_nonneg_of_mem (inside e member)
      have positive := zero_le_one.trans (growth_mem amount (inside e member)).1
      exact Volume.weighed_mono (loud later laterMember).1 positive softer (growth_mono lasts order)
  · intro amount le_one
    refine ⟨fun e => Volume.weighed e.volume (decline amount span e), rfl, ?_, ?_⟩
    · exact fun e member => weighed_decline_mem (loud e member) (inside e member) le_one
    · intro e member later laterMember order softer
      have ended := (decline_mem le_one (inside later laterMember)).1
      have positive := (sub_nonneg.2 le_one).trans ended
      exact Volume.weighed_mono (loud e member).1 positive softer
        (decline_anti le_one (inside e member) (inside later laterMember) order)

/-- Two equally loud notes and a louder one at the end of the phrase. -/
def fanfare : List Event :=
  [⟨1, 1, 60, 100, "trumpet"⟩, ⟨2, 1, 64, 100, "trumpet"⟩, ⟨3, 0, 67, 120, "trumpet"⟩]

theorem half_le_one : (Amount.nearest (1 / 2)).val ≤ 1 := by decide +kernel

open Usual

/-- Half as loud again, the last two notes of the fanfare come to 125 and 180, which is too loud;
half as loud, they come to 75 and 60. -/
theorem fanfare_graded :
    let s : Span := ⟨1, 2⟩
    let half : Amount := .nearest (1 / 2)
    (∀ e ∈ fanfare, 0 ≤ e.volume ∧ e.volume ≤ 127) ∧ (∀ e ∈ fanfare, e.onset ∈ s.moments) ∧
      (∃ grown : Event → Int,
        fancy.interpretPhrase fanfare (.crescendo half) {} s =
            .ok (fanfare.map fun e => { e with volume := grown e }) ∧
          fanfare.map grown = [100, 125, 127] ∧
          ∀ e ∈ fanfare, e.volume ≤ grown e ∧ grown e ≤ min 127 (e.volume * (1 + half.val)).floor) ∧
      ∃ faded : Event → Int,
        fancy.interpretPhrase fanfare (.diminuendo half half_le_one) {} s =
            .ok (fanfare.map fun e => { e with volume := faded e }) ∧
          fanfare.map faded = [100, 75, 60] ∧
          ∀ e ∈ fanfare, (e.volume * (1 - half.val)).floor ≤ faded e ∧ faded e ≤ e.volume := by
  intro s half
  have loud : ∀ e ∈ fanfare, 0 ≤ e.volume ∧ e.volume ≤ 127 := by decide +kernel
  have inside : ∀ e ∈ fanfare, e.onset ∈ s.moments := by
    have within : ∀ e ∈ fanfare, s.start ≤ e.onset ∧ e.onset ≤ s.finish := by decide +kernel
    exact within
  obtain ⟨growing, fading⟩ := gradual_dynamics_monotone loud inside {}
  have louder : fancy.interpretPhrase fanfare (.crescendo half) {} s =
      .ok [⟨1, 1, 60, 100, "trumpet"⟩, ⟨2, 1, 64, 125, "trumpet"⟩, ⟨3, 0, 67, 127, "trumpet"⟩] := by
    apply eq_ok_of_toOption
    decide +kernel
  have softer : fancy.interpretPhrase fanfare (.diminuendo half half_le_one) {} s =
      .ok [⟨1, 1, 60, 100, "trumpet"⟩, ⟨2, 1, 64, 75, "trumpet"⟩, ⟨3, 0, 67, 60, "trumpet"⟩] := by
    apply eq_ok_of_toOption
    decide +kernel
  refine ⟨loud, inside, ?_, ?_⟩
  · obtain ⟨grown, played, bounds, -⟩ := growing half
    refine ⟨grown, played, ?_, bounds⟩
    have same := congrArg (List.map Event.volume) (Except.ok.inj (played.symm.trans louder))
    rwa [List.map_map] at same
  · obtain ⟨faded, played, bounds, -⟩ := fading half half_le_one
    refine ⟨faded, played, ?_, bounds⟩
    have same := congrArg (List.map Event.volume) (Except.ok.inj (played.symm.trans softer))
    rwa [List.map_map] at same

end Style

end MusicAlgebra
