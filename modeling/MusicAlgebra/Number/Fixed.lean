import MusicAlgebra.Number.Binary64

/-!
# Six decimal places

Seconds and frequencies are written with exactly six places.  The exact value of the `Float` is
rounded once, a half going to the even neighbour, and the sign is that of the `Float`, so a small
negative number is written as minus zero.
-/

namespace MusicAlgebra.Number

/-- A natural number of millionths, with a decimal point. -/
def writeMillionths (n : Nat) : String :=
  let places := Nat.toDigits 10 (n % 1000000)
  let padded := List.replicate (6 - places.length) '0' ++ places
  String.ofList (Nat.toDigits 10 (n / 1000000) ++ '.' :: padded)

/-- A `Float` with six decimal places. -/
def sixPlaces (x : Float) : String :=
  match Reading.ofFloat x with
  | .undefined => "nan"
  | .infinite negative => if negative then "-inf" else "inf"
  | .finite negative mantissa exponent =>
    let scaled : Rat := 1000000 * (mantissa * twoPow exponent)
    let magnitude := writeMillionths (roundHalfEven scaled.num.toNat scaled.den)
    if negative then "-" ++ magnitude else magnitude

end MusicAlgebra.Number
