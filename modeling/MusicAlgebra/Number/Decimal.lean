import MusicAlgebra.Number.Base
import MusicAlgebra.Number.Binary64

/-!
# Decimal words

A decimal has digits before and after a point and an exponent of ten; digits may be set apart by
underscores.  Which of the parts may be missing is left to the notation that a decimal is written
in.  Its value is the nearest `Float`.
-/

namespace MusicAlgebra.Number

/-- Split a sign off a word. -/
def splitSign : List Char → Bool × List Char
  | '-' :: rest => (true, rest)
  | '+' :: rest => (false, rest)
  | s => (false, s)

/-- A digit, or an underscore between digits. -/
def isDigitOrLine (c : Char) : Bool := c.isDigit || c == '_'

/-- Digits without the underscores that set them apart. -/
def withoutLines (digits : List Char) : List Char := digits.filter (· != '_')

/-- A decimal, apart from its sign. -/
structure DecimalWord where
  whole : List Char
  /-- The places after the point, none if there is no point. -/
  places : Option (List Char)
  /-- The exponent with its sign, none if there is none. -/
  exponent : Option (Option Char × List Char)

namespace DecimalWord

/-- Take a word apart into the parts of a decimal; `none` if it is no such thing. -/
def ofChars (s : List Char) : Option DecimalWord :=
  let whole := s.takeWhile isDigitOrLine
  let (places, rest) := match s.dropWhile isDigitOrLine with
    | '.' :: rest => (some (rest.takeWhile isDigitOrLine), rest.dropWhile isDigitOrLine)
    | rest => (none, rest)
  match rest with
  | [] => some ⟨whole, places, none⟩
  | letter :: rest =>
    if letter = 'e' ∨ letter = 'E' then
      let (sign, digits) := match rest with
        | '-' :: digits => (some '-', digits)
        | '+' :: digits => (some '+', digits)
        | digits => (none, digits)
      if digits.isEmpty ∨ !digits.all Char.isDigit then none
      else some ⟨whole, places, some (sign, digits)⟩
    else none

/-- A power of ten past which every integer is too large for a `Float`. -/
def greatestPower : Nat := 400

/-- The `Float` nearest to a decimal, infinite where it is too large. -/
def toFloat (negative : Bool) (d : DecimalWord) : Float :=
  let places := withoutLines (d.places.getD [])
  let written := withoutLines d.whole ++ places
  let digits := digitsValue written
  let power : Int := match d.exponent with
    | some (some '-', exponent) => -(digitsValue exponent : Int)
    | some (_, exponent) => digitsValue exponent
    | none => 0
  let scaled : Int := power - places.length
  let value : Float :=
    if digits = 0 ∨ scaled < -((greatestPower + written.length : Nat) : Int) then 0.0
    else if (greatestPower : Int) < scaled then 1.0 / 0.0
    else
      let magnitude : Rat :=
        if 0 ≤ scaled then (digits * Nat.pow 10 scaled.toNat : Nat)
        else mkRat digits (Nat.pow 10 (-scaled).toNat)
      (nearest? magnitude).getD (1.0 / 0.0)
  if negative then -value else value

end DecimalWord

end MusicAlgebra.Number
