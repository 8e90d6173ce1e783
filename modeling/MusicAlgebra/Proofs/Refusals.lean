import Mathlib.Algebra.Group.Nat.Defs
import MusicAlgebra.Rejection

/-!
# Reports of invalid values

Most refusals report that a value is invalid, in a message that quotes it.  A few end otherwise: an
infinite number has no exact value, a list is no name, some integers have too many digits to be
read.  And no integer of more digits than the machine admits can be written, so that a message that
ought to quote one never comes about.  Some numbers can be written on every machine, and on a
machine without a limit all of them can.
-/

namespace MusicAlgebra

/-! ## Numbers -/

namespace Number

theorem admits_of_le [Limits] {count : Nat} (few : count ≤ 640) : admits count = true := by
  rw [admits, Option.all_eq_true]
  intro most limited
  exact decide_eq_true (Nat.le_trans few (Limits.digits_le most limited))

theorem admits_of_unlimited [Limits] (unlimited : Limits.mostDigits = none) (count : Nat) :
    admits count = true := by
  rw [admits, unlimited]
  rfl

/-- What can be written with digits that are admitted is short. -/
theorem isShort_of_lt [Limits] {n count : Nat} (admitted : admits count = true)
    (small : n < 10 ^ count) : isShort n = true := by
  rw [admits, Option.all_eq_true] at admitted
  rw [isShort, Option.all_eq_true]
  intro most limited
  have far : 10 ^ count ≤ 10 ^ most :=
    Nat.pow_le_pow_right (by decide) (of_decide_eq_true (admitted most limited))
  exact decide_eq_true (Nat.lt_of_lt_of_le small far)

/-- Three bits are less than a digit. -/
theorem isShort_of_log2_lt [Limits] {n count : Nat} (admitted : admits count = true)
    (small : n.log2 < 3 * count) : isShort n = true := by
  apply isShort_of_lt admitted
  calc n < 2 ^ (n.log2 + 1) := Nat.lt_log2_self
    _ ≤ 2 ^ (3 * count) := Nat.pow_le_pow_right (by decide) small
    _ = 8 ^ count := Nat.pow_mul 2 3 count
    _ ≤ 10 ^ count := Nat.pow_le_pow_left (by decide) count

theorem isShort_of_le [Limits] {n bound : Nat} (small : n ≤ bound) (short : isShort bound = true) :
    isShort n = true := by
  rw [isShort, Option.all_eq_true] at short ⊢
  intro most limited
  exact decide_eq_true (Nat.lt_of_le_of_lt small (of_decide_eq_true (short most limited)))

theorem isShort_of_unlimited [Limits] (unlimited : Limits.mostDigits = none) (n : Nat) :
    isShort n = true := by
  rw [isShort, unlimited]
  rfl

/-- An integer can be written unless it has too many digits. -/
theorem isWritable_intCast [Limits] (k : Int) : isWritable k = isShort k.natAbs := by
  have whole : isShort 1 = true := isShort_of_lt (admits_of_le (by decide : 1 ≤ 640)) (by decide)
  rw [isWritable, Rat.num_intCast, Rat.den_intCast, whole, Bool.and_true]

theorem isWritable_of_unlimited [Limits] (unlimited : Limits.mostDigits = none) (q : Rat) :
    isWritable q = true := by
  rw [isWritable, isShort_of_unlimited unlimited, isShort_of_unlimited unlimited]
  rfl

end Number

/-! ## Data -/

namespace Datum

mutual

theorem isWritable_of_unlimited [Limits] (unlimited : Limits.mostDigits = none) :
    ∀ given : Datum, given.isWritable = true
  | int value => Number.isWritable_of_unlimited unlimited value
  | list items => areWritable_of_unlimited unlimited items
  | mapping entries => entriesAreWritable_of_unlimited unlimited entries
  | null | bool _ | float _ | text _ => rfl

theorem areWritable_of_unlimited [Limits] (unlimited : Limits.mostDigits = none) :
    ∀ items : List Datum, areWritable items = true
  | [] => rfl
  | item :: rest => Bool.and_eq_true_iff.2
      ⟨isWritable_of_unlimited unlimited item, areWritable_of_unlimited unlimited rest⟩

theorem entriesAreWritable_of_unlimited [Limits] (unlimited : Limits.mostDigits = none) :
    ∀ entries : List (String × Datum), entriesAreWritable entries = true
  | [] => rfl
  | (_, value) :: rest => Bool.and_eq_true_iff.2
      ⟨isWritable_of_unlimited unlimited value, entriesAreWritable_of_unlimited unlimited rest⟩

end

end Datum

/-! ## Refusals -/

namespace Rejection

@[simp] theorem isInvalidValue_notRational [Limits] (what : String) (given : Datum) :
    (notRational what given).isInvalidValue = given.isWritable := rfl

@[simp] theorem isInvalidValue_negativeDuration [Limits] (value : Rat) :
    (negativeDuration value).isInvalidValue = Number.isWritable value := rfl

@[simp] theorem isInvalidValue_pitchOutOfRange [Limits] (spelling : Spelling)
    (octave absolute : Int) :
    (pitchOutOfRange spelling octave absolute).isInvalidValue =
      (Number.isWritable octave && Number.isWritable absolute) := rfl

@[simp] theorem isInvalidValue_absoluteOutOfRange [Limits] (absolute : Int) :
    (absoluteOutOfRange absolute).isInvalidValue = Number.isWritable absolute := rfl

end Rejection

end MusicAlgebra
