import MusicAlgebra.Limits
import MusicAlgebra.Text.Blank
import MusicAlgebra.Text.Digit

/-!
# Rational literals

A rational number is written as an integer, as a quotient such as `3/8`, or as a decimal with an
optional exponent.  A sign may lead, single underscores may separate digits, digits of any script
count, and blanks may surround the whole.  Neither the quotient's stroke nor the sign may have
blanks beside it.  Integers of more digits than the machine admits are neither read nor written.
-/

namespace MusicAlgebra.Number

open MusicAlgebra.Text

/-- Whether an integer may have so many digits where it is read. -/
def admits [Limits] (count : Nat) : Bool := Limits.mostDigits.all (count ≤ ·)

/-- Whether a natural number has few enough digits to be written. -/
def isShort [Limits] (n : Nat) : Bool := Limits.mostDigits.all (n < Nat.pow 10 ·)

/-- A run of digits at the front of a text: its value, how many digits it has, and what follows. -/
structure DigitRun where
  value : Nat
  count : Nat
  rest : List Char
  deriving DecidableEq, Repr

/-- Extend a run over the digits that follow, an underscore between two digits being skipped. -/
def DigitRun.extend (value count : Nat) : List Char → DigitRun
  | [] => ⟨value, count, []⟩
  | '_' :: c :: rest =>
    match digit? c with
    | some d =>
      if count = 0 then ⟨value, count, '_' :: c :: rest⟩
      else extend (value * 10 + d) (count + 1) rest
    | none => ⟨value, count, '_' :: c :: rest⟩
  | c :: rest =>
    match digit? c with
    | some d => extend (value * 10 + d) (count + 1) rest
    | none => ⟨value, count, c :: rest⟩

/-- The longest run of digits at the front of a text. -/
def digitRun (s : List Char) : DigitRun := .extend 0 0 s

/-- Whether a run is an integer: it has digits, and not too many. -/
def DigitRun.isInteger [Limits] (run : DigitRun) : Bool := 0 < run.count && admits run.count

/-- Whether a leading sign is negative, and what follows it. -/
def readSign : List Char → Bool × List Char
  | '-' :: rest => (true, rest)
  | '+' :: rest => (false, rest)
  | s => (false, s)

/-- Apply an exponent of ten at the front of a text to a value; without one, the value stands. -/
def readExponent [Limits] (value : Rat) : List Char → Rat × List Char
  | c :: rest =>
    if c = 'e' ∨ c = 'E' then
      let (negative, digits) := readSign rest
      let run := digitRun digits
      if !run.isInteger then (value, c :: rest)
      else
        let power : Rat := (Nat.pow 10 run.value : Nat)
        (if negative then value / power else value * power, run.rest)
    else (value, c :: rest)
  | [] => (value, [])

/-- A literal without sign and blanks, and what follows it.  A quotient with denominator zero is
no literal. -/
def readMagnitude [Limits] (s : List Char) : Option (Rat × List Char) :=
  let whole := digitRun s
  match whole.rest with
  | '/' :: rest =>
    let below := digitRun rest
    if !whole.isInteger ∨ !below.isInteger ∨ below.value = 0 then none
    else some (mkRat whole.value below.value, below.rest)
  | '.' :: rest =>
    let places := digitRun rest
    let counts := [whole.count, places.count]
    if counts = [0, 0] ∨ !counts.all admits then none
    else
      let scale := Nat.pow 10 places.count
      some (readExponent (mkRat (whole.value * scale + places.value : Nat) scale) places.rest)
  | rest => if whole.isInteger then some (readExponent whole.value rest) else none

/-- Read a rational literal. -/
def read [Limits] (text : String) : Option Rat :=
  let (negative, unsigned) := readSign (text.toList.dropWhile isBlank)
  match readMagnitude unsigned with
  | some (value, rest) =>
    if rest.all isBlank then some (if negative then -value else value) else none
  | none => none

/-- Whether a rational can be written. -/
def isWritable [Limits] (q : Rat) : Bool := isShort q.num.natAbs && isShort q.den

/-- Write a rational in lowest terms, the denominator one being left out. -/
def write (q : Rat) : String :=
  if q.den = 1 then toString q.num else s!"{q.num}/{q.den}"

open Usual

example : read " -1_0/4 " = some (-5 / 2) := by decide +kernel

example : read ".5e1" = some 5 := by decide +kernel

example : read "1 /4" = none := by decide +kernel

example : read "1/0" = none := by decide +kernel

example : write (6 / 4) = "3/2" := by decide +kernel

end MusicAlgebra.Number
