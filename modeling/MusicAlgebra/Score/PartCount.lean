import MusicAlgebra.Limits

/-!
# Counting parts

Repetitions and trills are lists of equal parts, asked for by an integer.  A negative number asks
for no parts.  A number that takes more than 64 bits is refused before it is looked at, and so is
one whose parts no store could hold.
-/

namespace MusicAlgebra

/-- Why a list cannot have as many parts as were asked for. -/
inductive Excess where
  /-- The number takes more than 64 bits. -/
  | uncountable
  /-- The parts need more room than there is. -/
  | unstorable
  deriving DecidableEq, Repr

def Excess.message : Excess → String
  | uncountable => "The number of parts is too large to be counted"
  | unstorable => "There are too many parts to be stored"

/-- How many parts a list has that is asked for an integer number of them. -/
def partCount [Limits] (n : Int) : Except Excess Nat :=
  if n < -greatestCount - 1 ∨ greatestCount < n then .error .uncountable
  else if Limits.mostParts < n then .error .unstorable
  else .ok n.toNat

/-- A number of parts that can be stored is granted. -/
theorem partCount_of_le [Limits] {n : Nat} (storable : n ≤ Limits.mostParts) :
    partCount n = .ok n := by
  have countable := Limits.mostParts_le
  rw [partCount, if_neg (by omega), if_neg (by omega), Int.toNat_natCast]

/-- Whatever is granted can be stored, and a natural number is granted as it is. -/
theorem partCount_eq_ok [Limits] {n : Int} {count : Nat} (granted : partCount n = .ok count) :
    count = n.toNat ∧ count ≤ Limits.mostParts := by
  unfold partCount at granted
  split at granted
  · cases granted
  · split at granted
    · cases granted
    · cases granted
      exact ⟨rfl, by omega⟩

end MusicAlgebra
