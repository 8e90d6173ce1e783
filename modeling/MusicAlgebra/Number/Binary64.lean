/-!
# Binary floating point and exact rationals

A finite `Float` stands for a rational `m · 2 ^ e`; this module reads that rational off the bits and
goes the other way by rounding to the nearest `Float`, halves to the even neighbour.  All
arithmetic is exact, so no rounding happens but the one that is asked for.
-/

namespace MusicAlgebra.Number

/-- What a `Float` stands for.  The sign of a finite value is kept beside its magnitude
`mantissa · 2 ^ exponent`, since zero has both signs. -/
inductive Reading where
  | finite (negative : Bool) (mantissa : Nat) (exponent : Int)
  | infinite (negative : Bool)
  | undefined
  deriving DecidableEq, Repr

/-- The weight of the leading bit of a mantissa. -/
def leadingBit : Nat := 4503599627370496

/-- The weight of the sign bit. -/
def signBit : Nat := 9223372036854775808

/-- The biased exponent that is kept for infinities and undefined values. -/
def reservedExponent : Nat := 2047

/-- Read a `Float` off its bits: one for the sign, eleven for the exponent, the rest for the
mantissa. -/
def Reading.ofFloat (x : Float) : Reading :=
  let bits := x.toBits.toNat
  let negative := decide (signBit ≤ bits)
  let biased : Nat := bits / leadingBit % (reservedExponent + 1)
  let fraction : Nat := bits % leadingBit
  if biased = reservedExponent then
    if fraction = 0 then .infinite negative else .undefined
  else if biased = 0 then .finite negative fraction (-1074)
  else .finite negative (fraction + leadingBit) ((biased : Int) - 1075)

/-- Two to an integer power. -/
def twoPow (e : Int) : Rat :=
  if 0 ≤ e then (Nat.pow 2 e.toNat : Rat) else mkRat 1 (Nat.pow 2 (-e).toNat)

/-- The exact value of a finite `Float`. -/
def valueOf? (x : Float) : Option Rat :=
  match Reading.ofFloat x with
  | .finite negative mantissa exponent =>
    let magnitude := mantissa * twoPow exponent
    some (if negative then -magnitude else magnitude)
  | _ => none

/-- The integer nearest to a quotient of naturals, a half going to the even neighbour. -/
def roundHalfEven (num den : Nat) : Nat :=
  let below := num / den
  let twice := 2 * (num % den)
  if twice < den then below
  else if den < twice then below + 1
  else if below % 2 = 0 then below
  else below + 1

/-- The nearest integer lies within half a unit of the quotient. -/
theorem roundHalfEven_close {num den : Nat} (pos : 0 < den) :
    2 * num ≤ 2 * (roundHalfEven num den * den) + den ∧
      2 * (roundHalfEven num den * den) ≤ 2 * num + den := by
  have split : num = num / den * den + num % den := by
    rw [Nat.mul_comm]; exact (Nat.div_add_mod num den).symm
  have small : num % den < den := Nat.mod_lt _ pos
  unfold roundHalfEven
  simp only
  repeat' split
  all_goals (try rw [Nat.add_mul, Nat.one_mul]); omega

/-- The bits, sign aside, of the `Float` nearest to a positive quotient.  `none` when the quotient
rounds past the largest `Float`. -/
def magnitudeBits (num den : Nat) : Option Nat :=
  if num = 0 then some 0
  else
    let guess : Int := (num.log2 : Int) - den.log2
    let top := if twoPow guess ≤ mkRat num den then guess else guess - 1
    let exponent := max (top - 52) (-1074)
    let mantissa :=
      if 0 ≤ exponent then roundHalfEven num (den * Nat.pow 2 exponent.toNat)
      else roundHalfEven (num * Nat.pow 2 (-exponent).toNat) den
    if mantissa < leadingBit then some mantissa
    else
      let biased := (exponent + 1075).toNat
      let bits := biased * leadingBit + (mantissa - leadingBit)
      if reservedExponent * leadingBit ≤ bits then none else some bits

/-- The `Float` nearest to a rational, or `none` when that would be infinite. -/
def nearest? (q : Rat) : Option Float :=
  (magnitudeBits q.num.natAbs q.den).map fun bits =>
    Float.ofBits (UInt64.ofNat (if q.num < 0 then bits + signBit else bits))

/-- The least magnitude that rounds past the largest `Float`: halfway from the largest one to the
power of two after it. -/
def beyondFloats : Nat := Nat.pow 2 1024 - Nat.pow 2 970

example : nearest? beyondFloats = none ∧ (nearest? (beyondFloats - 1 : Nat)).isSome := by
  decide +kernel

example : valueOf? 0.1 = some (3602879701896397 / 36028797018963968) := by decide +kernel

example : nearest? (1 / 10) = some 0.1 := by decide +kernel

/-- Halfway between two neighbours the even one wins. -/
example : nearest? 9007199254740993 = some 9007199254740992.0 := by decide +kernel

example : nearest? (Nat.pow 2 1024) = none := by decide +kernel

end MusicAlgebra.Number
