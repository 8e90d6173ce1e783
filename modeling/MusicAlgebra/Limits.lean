/-!
# Limits of the machine

Two things that can fail depend on the machine and not on the music.  An integer of too many digits
is neither read nor written; how many are too many is a setting, and there may be no such limit.
And a list can only have as many parts as there is room for.  Nothing but the bounds that every
machine obeys is assumed of these numbers.
-/

namespace MusicAlgebra

/-- The greatest number of 64 bits, one of which is the sign. -/
def greatestCount : Nat := 9223372036854775807

/-- What a machine can hold. -/
class Limits where
  /-- The most digits that an integer may have where it is read or written, if there is a limit. -/
  mostDigits : Option Nat
  /-- No limit is lower than 640 digits. -/
  digits_le : ∀ most ∈ mostDigits, 640 ≤ most
  /-- The most parts that a list may have. -/
  mostParts : Nat
  /-- Parts are counted in 64 bits. -/
  mostParts_le : mostParts ≤ greatestCount

namespace Usual

/-- The limits of a usual machine. -/
scoped instance limits : Limits where
  mostDigits := some 4300
  digits_le := by
    rintro _ ⟨⟩
    decide
  mostParts := 8589934592
  mostParts_le := by decide

end Usual

namespace Unlimited

/-- A usual machine, but without a limit of digits. -/
scoped instance limits : Limits where
  mostDigits := none
  digits_le := nofun
  mostParts := 8589934592
  mostParts_le := by decide

end Unlimited

end MusicAlgebra
