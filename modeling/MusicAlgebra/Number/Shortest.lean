import MusicAlgebra.Number.Binary64

/-!
# Shortest decimal text of a `Float`

A finite `Float` is written with the fewest significant digits that still read back as the same
`Float`; among equally short texts the one nearest to its value is taken, and of two equally near
ones the one that ends in an even digit.  Everything is decided in exact arithmetic on the interval
of rationals that round to the `Float`.
-/

namespace MusicAlgebra.Number

/-- The rationals that round to one positive `Float`.  The ends belong to it when the mantissa is
even, since halves go to the even neighbour. -/
structure RoundingInterval where
  value : Rat
  lower : Rat
  upper : Rat
  closed : Bool

/-- The interval around `mantissa · 2 ^ exponent`.  Below a power of two the neighbours are twice
as dense, so the lower end is nearer. -/
def RoundingInterval.around (mantissa : Nat) (exponent : Int) : RoundingInterval :=
  let quarter := twoPow (exponent - 2)
  let below := if mantissa = leadingBit ∧ -1074 < exponent then 1 else 2
  { value := (4 * mantissa : Nat) * quarter
    lower := (4 * mantissa - below : Nat) * quarter
    upper := (4 * mantissa + 2 : Nat) * quarter
    closed := mantissa % 2 == 0 }

def RoundingInterval.contains (i : RoundingInterval) (q : Rat) : Bool :=
  if i.closed then i.lower ≤ q && q ≤ i.upper else i.lower < q && q < i.upper

/-- Ten to an integer power. -/
def tenPow (e : Int) : Rat :=
  if 0 ≤ e then (Nat.pow 10 e.toNat : Rat) else mkRat 1 (Nat.pow 10 (-e).toNat)

/-- How many decimal digits a positive natural has. -/
def digitCount (n : Nat) : Nat :=
  (Nat.toDigits 10 n).length

/-- The place of the leading digit of a positive rational: the greatest `p` with `10 ^ p ≤ q`. -/
def leadingPlace (q : Rat) : Int :=
  if 1 ≤ q then (digitCount q.floor.toNat : Int) - 1
  else -(digitCount (q⁻¹.ceil.toNat - 1) : Int)

/-- Decimal digits as a natural and the place of the last of them. -/
structure Decimal where
  digits : Nat
  place : Int
  deriving DecidableEq, Repr

def Decimal.toRat (d : Decimal) : Rat := d.digits * tenPow d.place

/-- Of the two multiples of `10 ^ place` beside the value, one inside the interval: the nearer if
both are, and halfway between them the one with the even last digit. -/
def RoundingInterval.onGrid? (i : RoundingInterval) (place : Int) : Option Decimal :=
  let below := (i.value / tenPow place).floor.toNat
  let low : Decimal := ⟨below, place⟩
  let high : Decimal := ⟨below + 1, place⟩
  match i.contains low.toRat, i.contains high.toRat with
  | true, true =>
    let aboveLow := i.value - low.toRat
    let belowHigh := high.toRat - i.value
    some (if aboveLow < belowHigh ∨ (aboveLow = belowHigh ∧ below % 2 = 0) then low else high)
  | true, false => some low
  | false, true => some high
  | false, false => none

/-- The coarsest decimal that reads back.  Seventeen significant digits always do. -/
def RoundingInterval.shortest (i : RoundingInterval) : Decimal :=
  let leading := leadingPlace i.value
  let grids := (List.range 17).map fun (count : Nat) => leading - (count : Int)
  (grids.findSome? i.onGrid?).getD ⟨0, 0⟩

/-- Zeros at the end of the digits move into the place. -/
def Decimal.withoutTrailingZeros : Nat → Decimal → Decimal
  | 0, d => d
  | fuel + 1, d =>
    if d.digits ≠ 0 ∧ d.digits % 10 = 0 then
      withoutTrailingZeros fuel ⟨d.digits / 10, d.place + 1⟩
    else d

/-- Digits with a decimal point: positional when the leading digit's place is from `-4` to `15`,
with an exponent of at least two digits otherwise. -/
def Decimal.write (d : Decimal) : String :=
  let digits := Nat.toDigits 10 d.digits
  let point := (digits.length : Int) + d.place
  if -4 < point ∧ point ≤ 16 then
    if point ≤ 0 then
      String.ofList ('0' :: '.' :: (List.replicate (-point).toNat '0' ++ digits))
    else if d.place < 0 then
      String.ofList (digits.take point.toNat ++ '.' :: digits.drop point.toNat)
    else
      String.ofList (digits ++ List.replicate d.place.toNat '0' ++ ['.', '0'])
  else
    let power := point - 1
    let sign := if power < 0 then '-' else '+'
    let size := Nat.toDigits 10 power.natAbs
    let padded := if size.length < 2 then '0' :: size else size
    let mantissa := match digits with
      | first :: second :: rest => first :: '.' :: second :: rest
      | single => single
    String.ofList (mantissa ++ 'e' :: sign :: padded)

/-- The shortest text of a `Float`, the sign of zero being kept. -/
def shortestText (x : Float) : String :=
  match Reading.ofFloat x with
  | .undefined => "nan"
  | .infinite negative => if negative then "-inf" else "inf"
  | .finite negative mantissa exponent =>
    let magnitude :=
      if mantissa = 0 then "0.0"
      else ((RoundingInterval.around mantissa exponent).shortest.withoutTrailingZeros 17).write
    if negative then "-" ++ magnitude else magnitude

end MusicAlgebra.Number
