import MusicAlgebra.Proofs.Rearrangement
import MusicAlgebra.Proofs.RepeatedCuts
import MusicAlgebra.Score.Transformation

/-!
# Reversed scores

Of two voices that are reversed in time the shorter one enters later, by as much as it ended earlier,
so a reversed score lasts as long as before.  A score that is reversed twice is another tree than
before: where a voice entered later there now is silence behind it, and that silence breaks up
chains.  This module shows that it cannot be heard, since it ends with the other voice at the latest
and every phrase around both gets the same events and the same length.
-/

namespace MusicAlgebra

namespace Amount

theorem sub_add_eq_max (a b : Amount) : a - b + b = max b a := by
  ext
  rw [val_add, val_sub, val_max_eq]
  grind

protected theorem max_comm (a b : Amount) : max a b = max b a := by
  ext
  rw [val_max_eq, val_max_eq, max_comm]

@[simp] protected theorem max_self (a : Amount) : max a a = a := by
  rw [max_def, ite_self]

protected theorem add_comm (a b : Amount) : a + b = b + a := ext (add_comm a.val b.val)

@[simp] protected theorem sub_self (a : Amount) : a - a = 0 := sub_eq_zero_of_le (le_def.2 le_rfl)

end Amount

namespace Music

open Outcome Performance

variable {players : Registry} {c : Context} {m n : Music}

/-! ## Voices that enter later or end earlier -/

/-- A voice that enters after a silence, or at once. -/
def entering (silence : Amount) (m : Music) : Music :=
  if silence = 0 then m else delayed silence m

/-- A voice with a silence after it, or none. -/
def leaving (silence : Amount) (m : Music) : Music :=
  if silence = 0 then m else sequential m (rest silence)

@[simp] theorem entering_zero (m : Music) : entering 0 m = m := if_pos rfl

theorem duration_entering (silence : Amount) (m : Music) :
    (entering silence m).duration = silence + m.duration := by
  by_cases none : silence = 0
  · rw [none, entering_zero, Amount.zero_add]
  · rw [entering, if_neg none, delayed, duration_sequential, duration_rest]

theorem duration_leaving (silence : Amount) (m : Music) :
    (leaving silence m).duration = m.duration + silence := by
  by_cases none : silence = 0
  · rw [leaving, if_pos none, none, Amount.add_zero]
  · rw [leaving, if_neg none, duration_sequential, duration_rest]

theorem retrograde_entering (silence : Amount) (m : Music) :
    (entering silence m).retrograde = leaving silence m.retrograde := by
  by_cases none : silence = 0
  · rw [entering, leaving, if_pos none, if_pos none]
  · rw [entering, leaving, if_neg none, if_neg none]
    rfl

/-- Either voice enters by as much later as the other one is longer. -/
theorem retrograde_parallel (left right : Music) :
    (parallel left right).retrograde =
      parallel (entering (right.duration - left.duration) left.retrograde)
        (entering (left.duration - right.duration) right.retrograde) := by
  by_cases longer : right.duration < left.duration
  · rw [retrograde, if_pos longer, Amount.sub_eq_zero_of_le (Amount.le_of_lt longer),
      entering_zero, entering, if_neg (Amount.sub_ne_zero_of_lt longer)]
  · have ended : left.duration - right.duration = 0 :=
      Amount.sub_eq_zero_of_le (Amount.not_lt.1 longer)
    rw [retrograde, if_neg longer, ended, entering_zero]
    by_cases shorter : left.duration < right.duration
    · rw [if_pos shorter, entering, if_neg (Amount.sub_ne_zero_of_lt shorter)]
    · rw [if_neg shorter, Amount.sub_eq_zero_of_le (Amount.not_lt.1 shorter), entering_zero]

theorem duration_retrograde (m : Music) : m.retrograde.duration = m.duration := by
  induction m with
  | note n | rest length => rfl
  | sequential left right leftIH rightIH =>
      rw [retrograde, duration_sequential, duration_sequential, leftIH, rightIH, Amount.add_comm]
  | parallel left right leftIH rightIH =>
      rw [retrograde_parallel, duration_parallel, duration_entering, duration_entering, leftIH,
        rightIH, Amount.sub_add_eq_max, Amount.sub_add_eq_max, Amount.max_comm right.duration,
        Amount.max_self, duration_parallel]
  | modified modifier inner ih => rw [retrograde, duration_modified, duration_modified, ih]

/-! ## Two reversals -/

/-- Two voices, and the same voices with silence behind them, for no longer than both last. -/
inductive Completes : Music → Music → Prop where
  | voices {left right : Music} {first second : Amount}
      (within : max (left.duration + first) (right.duration + second) =
        max left.duration right.duration) :
      Completes (parallel left right) (parallel (leaving first left) (leaving second right))

theorem events_leaving [Limits] (players : Registry) (silence : Amount) (m : Music)
    (moving : 0 < c.tempo) :
    events <$> (leaving silence m).perform players c = events <$> m.perform players c := by
  by_cases none : silence = 0
  · rw [leaving, if_pos none]
  · have later := events_rest players silence
      (c := { c with startTime := c.startTime + m.duration.val / c.tempo }) moving
    rw [leaving, if_neg none, perform_sequential_pair players m _ moving, later]
    cases m.perform players c with
    | error failure => rfl
    | ok p => simp

theorem Completes.alikeInTime [Limits] (completes : Completes m n) : AlikeInTime players m n := by
  cases completes with
  | voices within =>
      constructor
      · rw [duration_parallel, duration_parallel, duration_leaving, duration_leaving, within]
      · intro c moving
        rw [perform_parallel_pair players _ _ moving, perform_parallel_pair players _ _ moving,
          events_leaving players _ _ moving, events_leaving players _ _ moving, duration_parallel,
          duration_parallel, duration_leaving, duration_leaving, within]

theorem retrograde_retrograde_parallel (left right : Music) :
    (parallel left right).retrograde.retrograde =
      parallel (leaving (right.duration - left.duration) left.retrograde.retrograde)
        (leaving (left.duration - right.duration) right.retrograde.retrograde) := by
  have together : (right.duration - left.duration) + left.duration =
      (left.duration - right.duration) + right.duration := by
    rw [Amount.sub_add_eq_max, Amount.sub_add_eq_max, Amount.max_comm]
  rw [retrograde_parallel, retrograde_parallel, duration_entering, duration_entering,
    duration_retrograde, duration_retrograde, together, Amount.sub_self, entering_zero,
    entering_zero, retrograde_entering, retrograde_entering]

/-- A score that is reversed twice differs from the score by silence behind its voices. -/
theorem completed_retrograde_retrograde (m : Music) :
    Rearranged Completes m m.retrograde.retrograde := by
  induction m with
  | note n | rest length => exact .refl _
  | sequential left right leftIH rightIH => exact .sequential leftIH rightIH
  | parallel left right leftIH rightIH =>
      rw [retrograde_retrograde_parallel]
      refine .trans (.parallel leftIH rightIH) (.here (.voices ?_))
      rw [duration_retrograde, duration_retrograde, duration_retrograde, duration_retrograde,
        Amount.add_comm left.duration, Amount.add_comm right.duration, Amount.sub_add_eq_max,
        Amount.sub_add_eq_max, Amount.max_comm right.duration, Amount.max_self]
  | modified modifier inner ih => exact .modified modifier ih

/-- Reversing a score twice cannot be heard, whoever plays it: the performance has the same events in
the same order and the same duration, or fails alike. -/
theorem perform_retrograde_retrograde [Limits] (players : Registry) (m : Music)
    (moving : 0 < c.tempo) :
    m.retrograde.retrograde.perform players c = m.perform players c ∧
      (Operand.music m.retrograde.retrograde).perform players c =
        (Operand.music m).perform players c := by
  have alike : AlikeInTime players m m.retrograde.retrograde :=
    (completed_retrograde_retrograde m).alikeInTime fun _ _ => Completes.alikeInTime
  exact ⟨(alike.performed c moving).symm, (alike.operand moving).symm⟩

open Usual

/-- The note of the phrase is shorter than the rest beside it, and has silence behind it after two
reversals. -/
theorem hurriedPhrase_reversed_twice :
    (0 : Rat) < 2 ∧ hurriedPhrase.retrograde.retrograde.agrees hurriedPhrase = false ∧
      ∃ p, hurriedPhrase.perform ⟨[("unruly", unruly)]⟩ { tempo := 2, player := .text "unruly" } =
          .ok p ∧
        hurriedPhrase.retrograde.retrograde.perform ⟨[("unruly", unruly)]⟩
          { tempo := 2, player := .text "unruly" } = .ok p := by
  have moving : (0 : Rat) < 2 := by decide +kernel
  have different : hurriedPhrase.retrograde.retrograde.agrees hurriedPhrase = false := by
    decide +kernel
  obtain ⟨p, performed⟩ := exists_of_isOk (show
    (hurriedPhrase.perform ⟨[("unruly", unruly)]⟩
      { tempo := 2, player := .text "unruly" }).isOk = true by decide +kernel)
  have unheard := (perform_retrograde_retrograde ⟨[("unruly", unruly)]⟩ hurriedPhrase
    (c := { tempo := 2, player := .text "unruly" }) moving).1
  exact ⟨moving, different, p, performed, unheard.trans performed⟩

end Music

end MusicAlgebra
