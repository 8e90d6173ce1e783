import MusicAlgebra.Proofs.Rearrangement
import MusicAlgebra.Proofs.ScoreContents
import MusicAlgebra.Score.Transformation

/-!
# Scores without zeros

Taking the notes and rests of no length out of the compositions of a score ends in a normal form
after one pass.  A composition that loses an operand becomes the other one, which may be such a leaf
itself and is then taken out of the composition around.  Modifiers stay, also around a leaf of no
length.  Whatever lasts stands where it stood, under the same modifiers.
-/

namespace MusicAlgebra.Music

variable {left right : Music}

theorem removeZeros_compose (kind : Composition) (left right : Music) :
    (compose kind left right).removeZeros =
      joinNonzero (compose kind) left.removeZeros right.removeZeros := by
  cases kind <;> rfl

/-! ## Lengths -/

theorem duration_of_isZero {m : Music} (zero : m.isZero = true) : m.duration = 0 := by
  cases m with
  | note n => rw [duration_note, LawfulBEq.eq_of_beq zero]
  | rest length => rw [duration_rest, LawfulBEq.eq_of_beq zero]
  | _ => cases zero

theorem duration_joinNonzero (kind : Composition) (left right : Music) :
    (joinNonzero (compose kind) left right).duration = (compose kind left right).duration := by
  rw [joinNonzero]
  split
  · rename_i zero
    have nothing := duration_of_isZero zero
    cases kind <;> simp [compose, nothing]
  · split
    · rename_i zero
      have nothing := duration_of_isZero zero
      cases kind <;> simp [compose, nothing]
    · rfl

theorem duration_removeZeros (m : Music) : m.removeZeros.duration = m.duration := by
  induction m with
  | note n | rest length => rfl
  | sequential left right leftIH rightIH =>
      have joined := duration_joinNonzero .sequential left.removeZeros right.removeZeros
      rw [compose, duration_sequential, leftIH, rightIH] at joined
      rw [duration_sequential]
      exact joined
  | parallel left right leftIH rightIH =>
      have joined := duration_joinNonzero .parallel left.removeZeros right.removeZeros
      rw [compose, duration_parallel, leftIH, rightIH] at joined
      rw [duration_parallel]
      exact joined
  | modified modifier inner ih => rw [removeZeros, duration_modified, duration_modified, ih]

/-! ## The normal form -/

/-- No operand of a composition, at any depth, is a note or a rest of no length. -/
def ZeroFree : Music → Prop
  | note _ => True
  | rest _ => True
  | sequential left right =>
      (left.isZero = false ∧ right.isZero = false) ∧ left.ZeroFree ∧ right.ZeroFree
  | parallel left right =>
      (left.isZero = false ∧ right.isZero = false) ∧ left.ZeroFree ∧ right.ZeroFree
  | modified _ inner => inner.ZeroFree

theorem joinNonzero_of_nonzero (join : Music → Music → Music) (leftLasts : left.isZero = false)
    (rightLasts : right.isZero = false) : joinNonzero join left right = join left right := by
  simp [joinNonzero, leftLasts, rightLasts]

theorem zeroFree_joinNonzero (kind : Composition) (first : left.ZeroFree)
    (second : right.ZeroFree) : (joinNonzero (compose kind) left right).ZeroFree := by
  cases leftZero : left.isZero with
  | true =>
      rw [joinNonzero, if_pos leftZero]
      exact second
  | false =>
      cases rightZero : right.isZero with
      | true =>
          rw [joinNonzero, leftZero, if_neg Bool.false_ne_true, if_pos rightZero]
          exact first
      | false =>
          rw [joinNonzero_of_nonzero _ leftZero rightZero]
          cases kind <;> exact ⟨⟨leftZero, rightZero⟩, first, second⟩

theorem zeroFree_removeZeros (m : Music) : m.removeZeros.ZeroFree := by
  induction m with
  | note n | rest length => trivial
  | sequential left right leftIH rightIH => exact zeroFree_joinNonzero .sequential leftIH rightIH
  | parallel left right leftIH rightIH => exact zeroFree_joinNonzero .parallel leftIH rightIH
  | modified modifier inner ih => exact ih

theorem removeZeros_of_zeroFree {m : Music} (free : m.ZeroFree) : m.removeZeros = m := by
  induction m with
  | note n | rest length => rfl
  | sequential left right leftIH rightIH | parallel left right leftIH rightIH =>
      rw [removeZeros, leftIH free.2.1, rightIH free.2.2]
      exact joinNonzero_of_nonzero _ free.1.1 free.1.2
  | modified modifier inner ih => rw [removeZeros, ih free]

/-- The scores in normal form are those in which there is nothing to remove. -/
theorem removeZeros_eq_self_iff {m : Music} : m.removeZeros = m ↔ m.ZeroFree := by
  constructor
  · intro unchanged
    rw [← unchanged]
    exact zeroFree_removeZeros m
  · exact removeZeros_of_zeroFree

/-! ## What lasts -/

/-- The notes and rests of positive length, each with the modifiers around it. -/
def lastingLeaves (m : Music) : List (List Modifier × Music) :=
  m.leaves.filter fun leaf => 0 < leaf.2.duration

theorem lastingLeaves_compose (kind : Composition) (left right : Music) :
    (compose kind left right).lastingLeaves = left.lastingLeaves ++ right.lastingLeaves := by
  cases kind <;> exact List.filter_append ..

theorem lastingLeaves_modified (modifier : Modifier) (inner : Music) :
    (modified modifier inner).lastingLeaves =
      inner.lastingLeaves.map fun leaf => (modifier :: leaf.1, leaf.2) := by
  rw [lastingLeaves, leaves_modified, List.filter_map]
  rfl

theorem lastingLeaves_of_isZero {m : Music} (zero : m.isZero = true) : m.lastingLeaves = [] := by
  have nothing := duration_of_isZero zero
  cases m with
  | note n => simp [lastingLeaves, nothing, Amount.lt_def]
  | rest length => simp [lastingLeaves, nothing, Amount.lt_def]
  | _ => cases zero

theorem lastingLeaves_joinNonzero (kind : Composition) (left right : Music) :
    (joinNonzero (compose kind) left right).lastingLeaves =
      left.lastingLeaves ++ right.lastingLeaves := by
  rw [joinNonzero]
  split
  · rename_i zero
    rw [lastingLeaves_of_isZero zero, List.nil_append]
  · split
    · rename_i zero
      rw [lastingLeaves_of_isZero zero, List.append_nil]
    · exact lastingLeaves_compose kind left right

theorem lastingLeaves_removeZeros (m : Music) : m.removeZeros.lastingLeaves = m.lastingLeaves := by
  induction m with
  | note n | rest length => rfl
  | sequential left right leftIH rightIH =>
      have joined := lastingLeaves_joinNonzero .sequential left.removeZeros right.removeZeros
      rw [leftIH, rightIH] at joined
      exact joined.trans (lastingLeaves_compose .sequential left right).symm
  | parallel left right leftIH rightIH =>
      have joined := lastingLeaves_joinNonzero .parallel left.removeZeros right.removeZeros
      rw [leftIH, rightIH] at joined
      exact joined.trans (lastingLeaves_compose .parallel left right).symm
  | modified modifier inner ih =>
      rw [removeZeros, lastingLeaves_modified, lastingLeaves_modified, ih]

/-- Removing zeros ends in a normal form.  No composition of the result has a note or a rest of no
length as an operand; the notes and rests that last are those of the score, in the same order and
under the same modifiers; and where nothing is left to remove, which is so after one pass and in no
scores but those in normal form, nothing changes. -/
theorem removeZeros_normalizes (m : Music) :
    m.removeZeros.ZeroFree ∧ m.removeZeros.lastingLeaves = m.lastingLeaves ∧
      m.removeZeros.removeZeros = m.removeZeros ∧ (m.removeZeros = m ↔ m.ZeroFree) := by
  have free := zeroFree_removeZeros m
  exact ⟨free, lastingLeaves_removeZeros m, removeZeros_of_zeroFree free, removeZeros_eq_self_iff⟩

/-- A composition of rests of no length is one of them, which is taken out as well; the modifier
keeps the other one. -/
example :
    (sequential (parallel (rest 0) (rest 0)) (modified (.dynamics 5) (rest 0))).removeZeros =
      modified (.dynamics 5) (rest 0) := rfl

end MusicAlgebra.Music
