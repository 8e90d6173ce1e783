import Mathlib.Algebra.Order.Field.Basic
import Mathlib.Algebra.Order.Ring.Rat
import MusicAlgebra.Score.Cut

/-!
# How long a cut piece lasts

`Music.take` and `Music.drop` cut a score at a moment of its own time.  The moment is carried inward
through tempos and phrases while lengths are carried outward, and in a sequence what is left of it
is measured by the operand that has just been cut.  This module shows that no length is lost on
either way: the beginning lasts exactly as long as was asked for, as far as there is that much
music, and the rest lasts what remains.
-/

namespace MusicAlgebra

namespace Amount

theorem val_sub (a b : Amount) : (a - b).val = max (a.val - b.val) 0 := by
  rcases le_total b.val a.val with small | large
  · rw [val_sub_of_le (le_def.2 small), max_eq_left (sub_nonneg.2 small)]
  · rw [sub_eq_zero_of_le (le_def.2 large), max_eq_right (sub_nonpos.2 large), val_zero]

theorem val_min_eq (a b : Amount) : (min a b).val = min a.val b.val := by
  rw [val_min]
  grind

theorem val_max_eq (a b : Amount) : (max a b).val = max a.val b.val := by
  rw [val_max]
  grind

@[simp] theorem zero_min (a : Amount) : min 0 a = 0 := by
  rw [min_def, if_pos (le_def.2 a.nonneg)]

@[simp] protected theorem sub_zero (a : Amount) : a - 0 = a := by
  ext
  rw [val_sub_of_le (le_def.2 a.nonneg)]
  exact sub_zero a.val

protected theorem min_comm (a b : Amount) : min a b = min b a := by
  ext
  rw [val_min_eq, val_min_eq, min_comm]

/-- What is kept of two lengths in a row is kept first of the one and then of the other. -/
theorem min_add (a b c : Amount) : min a b + min (a - min a b) c = min a (b + c) := by
  ext
  have := c.nonneg
  simp only [val_add, val_min_eq, val_sub]
  grind

/-- What is taken away from two lengths in a row is taken first from the one and then from the
other. -/
theorem add_sub (a b c : Amount) : (b - a) + (c - (a - b)) = (b + c) - a := by
  ext
  have := c.nonneg
  simp only [val_add, val_sub]
  grind

theorem min_max (a b c : Amount) : max (min a b) (min a c) = min a (max b c) := by
  ext
  simp only [val_min_eq, val_max_eq]
  grind

theorem max_sub (a b c : Amount) : max (b - a) (c - a) = max b c - a := by
  ext
  simp only [val_max_eq, val_sub]
  grind

end Amount

namespace Modifier

variable {modifier : Modifier}

/-- A modifier stretches all lengths alike: outward by its pace, and inward by as much back. -/
theorem exists_pace (modifier : Modifier) :
    ∃ pace : Scale, (∀ length, modifier.outward length = length.times pace) ∧
      ∀ length, modifier.inward length = length.dividedBy pace := by
  cases modifier with
  | tempo scale =>
      refine ⟨⟨scale.val⁻¹, inv_pos.2 scale.pos⟩, fun length => Amount.ext ?_,
        fun length => Amount.ext ?_⟩
      · exact div_eq_mul_inv _ _
      · exact (div_inv_eq_mul _ _).symm
  | phrase attributes =>
      exact ⟨Attribute.totalTimeFactor attributes, fun length => rfl, fun length => rfl⟩
  | _ =>
      exact ⟨1, fun length => Amount.ext (mul_one _).symm,
        fun length => Amount.ext (div_one _).symm⟩

/-- A moment carried inward and back falls where it was. -/
@[simp] theorem outward_inward (modifier : Modifier) (length : Amount) :
    modifier.outward (modifier.inward length) = length := by
  obtain ⟨pace, outward, inward⟩ := modifier.exists_pace
  rw [outward, inward]
  exact Amount.ext (div_mul_cancel₀ _ pace.pos.ne')

theorem outward_min (modifier : Modifier) (a b : Amount) :
    modifier.outward (min a b) = min (modifier.outward a) (modifier.outward b) := by
  obtain ⟨pace, outward, -⟩ := modifier.exists_pace
  ext
  simp only [outward, Amount.val_times, Amount.val_min_eq]
  exact min_mul_of_nonneg _ _ pace.pos.le

theorem outward_sub (modifier : Modifier) (a b : Amount) :
    modifier.outward (a - b) = modifier.outward a - modifier.outward b := by
  obtain ⟨pace, outward, -⟩ := modifier.exists_pace
  ext
  simp only [outward, Amount.val_times, Amount.val_sub]
  rw [max_mul_of_nonneg _ _ pace.pos.le, sub_mul, zero_mul]

end Modifier

namespace Music

/-- The beginning of a piece lasts as long as was asked for, or as long as the piece. -/
theorem duration_take (m : Music) (length : Amount) :
    (m.take length).duration = min length m.duration := by
  by_cases nothing : length = 0
  · rw [nothing, take_zero, duration_rest, Amount.zero_min]
  rw [take.eq_def, if_neg nothing]
  cases m with
  | note n =>
      rw [duration_note, duration_note]
      exact Amount.min_comm _ _
  | rest own =>
      rw [duration_rest, duration_rest]
      exact Amount.min_comm _ _
  | sequential left right =>
      -- The second operand gets what the shortened first one leaves, not what the whole one would.
      have beginning := duration_take left length
      simp only [duration_sequential]
      rw [duration_take right, beginning, Amount.min_add]
  | parallel left right =>
      simp only [duration_parallel]
      rw [duration_take left, duration_take right, Amount.min_max]
  | modified modifier inner =>
      simp only [duration_modified]
      rw [duration_take inner, Modifier.outward_min, Modifier.outward_inward]

/-- The rest of a piece lasts what remains of it after the cut. -/
theorem duration_drop (m : Music) (length : Amount) :
    (m.drop length).duration = m.duration - length := by
  by_cases nothing : length = 0
  · rw [nothing, drop_zero, Amount.sub_zero]
  rw [drop.eq_def, if_neg nothing]
  cases m with
  | note n => rw [duration_note, duration_note]
  | rest own => rw [duration_rest, duration_rest]
  | sequential left right =>
      simp only [duration_sequential]
      rw [duration_drop left, duration_drop right, Amount.add_sub]
  | parallel left right =>
      simp only [duration_parallel]
      rw [duration_drop left, duration_drop right, Amount.max_sub]
  | modified modifier inner =>
      simp only [duration_modified]
      rw [duration_drop inner, Modifier.outward_sub, Modifier.outward_inward]

/-- No length is lost in a cut. -/
theorem duration_take_add_duration_drop (m : Music) (length : Amount) :
    (m.take length).duration + (m.drop length).duration = m.duration := by
  ext
  simp only [duration_take, duration_drop, Amount.val_add, Amount.val_min_eq, Amount.val_sub]
  grind

/-- A cut falls where it was asked for, whatever tempos and phrases stand above the notes: the
beginning has the length asked for or the whole length, the rest has what exceeds it.  Two parts cut
to each other therefore end together, with the shorter one of them. -/
theorem cut_durations (m other : Music) (length : Amount) :
    (m.take length).duration.val = min length.val m.duration.val ∧
      (m.drop length).duration.val = max (m.duration.val - length.val) 0 ∧
      ∃ first second, m.parallelCut other = parallel first second ∧
        first.duration.val = min m.duration.val other.duration.val ∧
        second.duration.val = min m.duration.val other.duration.val ∧
        (m.parallelCut other).duration.val = min m.duration.val other.duration.val := by
  have first : (m.take other.duration).duration.val = min m.duration.val other.duration.val := by
    rw [duration_take, Amount.val_min_eq, min_comm]
  have second : (other.take m.duration).duration.val = min m.duration.val other.duration.val := by
    rw [duration_take, Amount.val_min_eq]
  refine ⟨?_, ?_, _, _, rfl, first, second, ?_⟩
  · rw [duration_take, Amount.val_min_eq]
  · rw [duration_drop, Amount.val_sub]
  · rw [parallelCut, duration_parallel, Amount.val_max_eq, first, second, max_self]

end Music

end MusicAlgebra
