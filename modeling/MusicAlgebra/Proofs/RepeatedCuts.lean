import MusicAlgebra.Proofs.CutDuration
import MusicAlgebra.Proofs.PerformedDuration

/-!
# Cutting more than once

Two cuts at moments of a piece make one cut: the beginning of a beginning is the shorter one, what
is left of the rest lies behind both moments, and a stretch in the middle can be cut out from either
side.  The pieces are then the same trees, not only equally long ones, although a cut at moment zero
keeps nothing of the tree or all of it and every other cut goes down to the notes.
-/

namespace MusicAlgebra

namespace Amount

protected theorem le_of_lt {a b : Amount} (before : a < b) : a ≤ b :=
  le_def.2 (lt_def.1 before).le

protected theorem not_lt {a b : Amount} : ¬ a < b ↔ b ≤ a := by
  rw [lt_def, le_def, not_lt]

protected theorem min_eq_left {a b : Amount} (order : a ≤ b) : min a b = a := by
  rw [min_def, if_pos order]

protected theorem min_eq_right {a b : Amount} (order : b ≤ a) : min a b = b := by
  rw [Amount.min_comm, Amount.min_eq_left order]

protected theorem sub_sub (a b c : Amount) : a - b - c = a - (b + c) := by
  ext
  have := b.nonneg
  have := c.nonneg
  simp only [val_add, val_sub]
  grind

@[simp] protected theorem zero_sub (a : Amount) : 0 - a = 0 := sub_eq_zero_of_le (le_def.2 a.nonneg)

protected theorem min_assoc (a b c : Amount) : min (min a b) c = min a (min b c) := by
  ext
  simp only [val_min_eq, min_assoc]

theorem min_sub (a b c : Amount) : min a b - c = min (a - c) (b - c) := by
  ext
  simp only [val_min_eq, val_sub]
  grind

/-- What a length leaves of another one does not change if no more of it than that is looked at. -/
theorem sub_min (a b : Amount) : a - min a b = a - b := by
  ext
  simp only [val_min_eq, val_sub]
  grind

/-- What two beginnings leave behind a length that the first of them may have cut short. -/
theorem min_sub_min (a b c : Amount) : min (a - c) (b - min a c) = min a b - c := by
  ext
  simp only [val_min_eq, val_sub]
  grind

/-- What a length leaves of another one, at a tempo. -/
theorem val_sub_div {tempo : Rat} (nonneg : 0 ≤ tempo) (a b : Amount) :
    (a - b).val / tempo = max (a.val / tempo - b.val / tempo) 0 := by
  rw [val_sub, ← max_div_div_right nonneg, sub_div, zero_div]

theorem sub_sub_sub (a b c : Amount) : a - b - (c - b) = a - c - (b - c) := by
  ext
  simp only [val_sub]
  grind

theorem sub_lt_sub {a b c : Amount} (before : b < a) (inside : c < a) : b - c < a - c := by
  have order : b.val < a.val := before
  have within : c.val < a.val := inside
  show (b - c).val < (a - c).val
  simp only [val_sub]
  grind

theorem val_pos {a : Amount} (some : a ≠ 0) : 0 < a.val :=
  lt_of_le_of_ne a.nonneg fun none => some (eq_zero_iff.2 none.symm)

theorem sub_ne_zero_of_lt {a b : Amount} (before : b < a) : a - b ≠ 0 := by
  have order : b.val < a.val := before
  rw [Ne, eq_zero_iff, val_sub]
  grind

theorem ne_zero_of_lt {a b : Amount} (before : b < a) : a ≠ 0 := by
  have order : b.val < a.val := before
  have := b.nonneg
  rw [Ne, eq_zero_iff]
  grind

theorem min_ne_zero {a b : Amount} (first : a ≠ 0) (second : b ≠ 0) : min a b ≠ 0 := by
  rw [min_def]
  split
  · exact first
  · exact second

end Amount

namespace Modifier

variable (modifier : Modifier)

theorem inward_add (a b : Amount) :
    modifier.inward (a + b) = modifier.inward a + modifier.inward b := by
  obtain ⟨pace, -, inward⟩ := modifier.exists_pace
  ext
  simp only [inward, Amount.val_dividedBy, Amount.val_add, add_div]

theorem inward_min (a b : Amount) :
    modifier.inward (min a b) = min (modifier.inward a) (modifier.inward b) := by
  obtain ⟨pace, -, inward⟩ := modifier.exists_pace
  ext
  simp only [inward, Amount.val_dividedBy, Amount.val_min_eq]
  exact (min_div_div_right pace.pos.le _ _).symm

theorem inward_sub (a b : Amount) :
    modifier.inward (a - b) = modifier.inward a - modifier.inward b := by
  obtain ⟨pace, -, inward⟩ := modifier.exists_pace
  ext
  rw [inward, inward, inward, Amount.val_sub]
  exact Amount.val_sub_div pace.pos.le a b

@[simp] theorem inward_zero : modifier.inward 0 = 0 := by
  obtain ⟨pace, -, inward⟩ := modifier.exists_pace
  rw [inward]
  exact Amount.ext (zero_div _)

theorem inward_lt {a b : Amount} (before : b < a) :
    modifier.inward b < modifier.inward a := by
  obtain ⟨pace, -, inward⟩ := modifier.exists_pace
  rw [inward, inward]
  exact (div_lt_div_iff_of_pos_right pace.pos).2 before

end Modifier

namespace Music

variable (n : Note) (own length : Amount) (left right inner : Music) (modifier : Modifier)

/-! ## One cut, node by node -/

/-- A cut at moment zero leaves out nothing, so it may go down to the notes like every other. -/
@[simp] theorem drop_note :
    (note n).drop length = note { n with length := n.length - length } := by
  by_cases nothing : length = 0
  · rw [nothing, drop_zero, Amount.sub_zero]
  · rw [drop.eq_def, if_neg nothing]

@[simp] theorem drop_rest : (rest own).drop length = rest (own - length) := by
  by_cases nothing : length = 0
  · rw [nothing, drop_zero, Amount.sub_zero]
  · rw [drop.eq_def, if_neg nothing]

@[simp] theorem drop_sequential :
    (sequential left right).drop length =
      sequential (left.drop length) (right.drop (length - left.duration)) := by
  by_cases nothing : length = 0
  · rw [nothing, Amount.zero_sub, drop_zero, drop_zero, drop_zero]
  · rw [drop.eq_def, if_neg nothing]

@[simp] theorem drop_parallel :
    (parallel left right).drop length = parallel (left.drop length) (right.drop length) := by
  by_cases nothing : length = 0
  · rw [nothing, drop_zero, drop_zero, drop_zero]
  · rw [drop.eq_def, if_neg nothing]

@[simp] theorem drop_modified :
    (modified modifier inner).drop length =
      modified modifier (inner.drop (modifier.inward length)) := by
  by_cases nothing : length = 0
  · rw [nothing, Modifier.inward_zero, drop_zero, drop_zero]
  · rw [drop.eq_def, if_neg nothing]

variable {length}

theorem take_note (some : length ≠ 0) :
    (note n).take length = note { n with length := min n.length length } := by
  rw [take.eq_def, if_neg some]

theorem take_rest (some : length ≠ 0) : (rest own).take length = rest (min own length) := by
  rw [take.eq_def, if_neg some]

/-- The second operand gets what the first one leaves, whether that is measured before its cut or
after it. -/
theorem take_sequential (some : length ≠ 0) :
    (sequential left right).take length =
      sequential (left.take length) (right.take (length - left.duration)) := by
  rw [take.eq_def, if_neg some]
  dsimp only
  rw [duration_take, Amount.sub_min]

theorem take_parallel (some : length ≠ 0) :
    (parallel left right).take length = parallel (left.take length) (right.take length) := by
  rw [take.eq_def, if_neg some]

theorem take_modified (some : length ≠ 0) :
    (modified modifier inner).take length =
      modified modifier (inner.take (modifier.inward length)) := by
  rw [take.eq_def, if_neg some]

/-! ## Two cuts -/

@[simp] theorem take_rest_zero (a : Amount) : (rest 0).take a = rest 0 := by
  by_cases nothing : a = 0
  · rw [nothing, take_zero]
  · rw [take_rest 0 nothing, Amount.zero_min]

/-- The beginning of a beginning is the shorter one of the two. -/
theorem take_take (m : Music) (a b : Amount) : (m.take a).take b = m.take (min a b) := by
  by_cases first : a = 0
  · rw [first, take_zero, take_rest_zero, Amount.zero_min, take_zero]
  by_cases second : b = 0
  · rw [second, take_zero, Amount.min_comm, Amount.zero_min, take_zero]
  have both := Amount.min_ne_zero first second
  cases m with
  | note n => rw [take_note n first, take_note _ second, take_note n both, Amount.min_assoc]
  | rest own => rw [take_rest own first, take_rest _ second, take_rest own both, Amount.min_assoc]
  | sequential left right =>
      rw [take_sequential left right first, take_sequential _ _ second,
        take_sequential left right both, duration_take, take_take left, take_take right,
        Amount.min_sub_min]
  | parallel left right =>
      rw [take_parallel left right first, take_parallel _ _ second, take_parallel left right both,
        take_take left, take_take right]
  | modified modifier inner =>
      rw [take_modified inner modifier first, take_modified _ modifier second,
        take_modified inner modifier both, take_take inner, Modifier.inward_min]

/-- What is left behind two cuts is left behind one of their whole length. -/
theorem drop_drop (m : Music) (a b : Amount) : (m.drop a).drop b = m.drop (a + b) := by
  induction m generalizing a b with
  | note n => simp only [drop_note, Amount.sub_sub]
  | rest own => simp only [drop_rest, Amount.sub_sub]
  | sequential left right leftIH rightIH =>
      simp only [drop_sequential, leftIH, rightIH, duration_drop, Amount.add_sub]
  | parallel left right leftIH rightIH => simp only [drop_parallel, leftIH, rightIH]
  | modified modifier inner ih => simp only [drop_modified, ih, Modifier.inward_add]

/-- A stretch in the middle of a piece is the end of a beginning and the beginning of a rest. -/
theorem drop_take (m : Music) {a b : Amount} (before : b < a) :
    (m.take a).drop b = (m.drop b).take (a - b) := by
  have some := Amount.ne_zero_of_lt before
  have stretch := Amount.sub_ne_zero_of_lt before
  cases m with
  | note n => rw [take_note n some, drop_note, drop_note, take_note _ stretch, Amount.min_sub]
  | rest own => rw [take_rest own some, drop_rest, drop_rest, take_rest _ stretch, Amount.min_sub]
  | sequential left right =>
      rw [take_sequential left right some, drop_sequential, drop_sequential,
        take_sequential _ _ stretch, duration_take, duration_drop, drop_take left before,
        Amount.sub_sub_sub]
      by_cases inside : left.duration < a
      · rw [Amount.min_eq_right (Amount.le_of_lt inside),
          drop_take right (Amount.sub_lt_sub before inside)]
      · -- The stretch ends before the second operand begins.
        have outside : a ≤ left.duration := Amount.not_lt.1 inside
        rw [Amount.min_eq_left outside, Amount.sub_eq_zero_of_le outside,
          Amount.sub_eq_zero_of_le (Amount.le_of_lt before), Amount.zero_sub, take_zero, take_zero,
          drop_zero]
  | parallel left right =>
      rw [take_parallel left right some, drop_parallel, drop_parallel, take_parallel _ _ stretch,
        drop_take left before, drop_take right before]
  | modified modifier inner =>
      have inside := modifier.inward_lt before
      rw [take_modified inner modifier some, drop_modified, drop_modified,
        take_modified _ modifier stretch, drop_take inner inside, Modifier.inward_sub]

/-- Cuts compose to cuts, tree by tree.  Two beginnings are the shorter one, two rests are the rest
behind both cuts, and what lies between two moments of a piece can be cut at the later one first or
at the earlier one. -/
theorem cuts_compose (m : Music) (a b : Amount) :
    (m.take a).take b = m.take (min a b) ∧
      (m.drop a).drop b = m.drop (a + b) ∧
      (b < a → (m.take a).drop b = (m.drop b).take (a - b) ∧ (a - b).val = a.val - b.val) := by
  refine ⟨take_take m a b, drop_drop m a b, ?_⟩
  intro before
  exact ⟨drop_take m before, Amount.val_sub_of_le (Amount.le_of_lt before)⟩

/-- Two notes that broaden to twice their time, before a third one. -/
def broadenedPair : Music :=
  sequential
    (modified (.phrase [.ritardando (.nearest 1)]) (sequential (quarter .c) (quarter .e)))
    (quarter .g)

/-- A stretch that begins within the second note and ends within the third one. -/
theorem broadenedPair_stretch :
    Amount.nearest (3 / 4) < .nearest (9 / 8) ∧
      (broadenedPair.take (.nearest (9 / 8))).drop (.nearest (3 / 4)) =
        (broadenedPair.drop (.nearest (3 / 4))).take (.nearest (9 / 8) - .nearest (3 / 4)) ∧
      ((broadenedPair.take (.nearest (9 / 8))).drop (.nearest (3 / 4))).agrees
        (sequential
          (modified (.phrase [.ritardando (.nearest 1)])
            (sequential ((quarter .c).drop (.nearest (1 / 4)))
              ((quarter .e).drop (.nearest (1 / 8)))))
          ((quarter .g).take (.nearest (1 / 8)))) = true := by
  have before : Amount.nearest (3 / 4) < .nearest (9 / 8) := by decide +kernel
  obtain ⟨-, -, stretch⟩ := cuts_compose broadenedPair (.nearest (9 / 8)) (.nearest (3 / 4))
  exact ⟨before, (stretch before).1, by decide +kernel⟩

end Music

end MusicAlgebra
