import MusicAlgebra.Datum
import MusicAlgebra.Number.Decimal

/-!
# Bare words

A word without quotes stands for a number, a truth value, null or itself.  Integers may be written
to several bases and in sixtieths, and digits may be set apart by underscores.
-/

namespace MusicAlgebra.Document

open Number

/-- Split a text at every character of one kind. -/
def splitAt (separator : Char) (s : List Char) : List (List Char) :=
  s.foldr
    (fun c parts =>
      if c = separator then [] :: parts
      else
        match parts with
        | [] => [[c]]
        | part :: rest => (c :: part) :: rest) [[]]

/-- Whether a word starts with a decimal digit. -/
def startsWithDigit (s : List Char) : Bool := s.head?.any Char.isDigit

/-- The parts of a number in sixtieths: digits, then one or two digits after every colon. -/
def sixtieths? (s : List Char) : Option (List Char × List (List Char)) :=
  match splitAt ':' s with
  | first :: second :: others =>
    let isSixtieth (part : List Char) : Bool :=
      match part with
      | [digit] => digit.isDigit
      | [ten, digit] => decide ('0' ≤ ten ∧ ten ≤ '5') && digit.isDigit
      | _ => false
    if startsWithDigit first && first.all isDigitOrLine && (second :: others).all isSixtieth then
      some (first, second :: others)
    else none
  | _ => none

/-- An integer without its sign: binary after `0b`, octal after `0`, hexadecimal after `0x`, in
sixtieths with colons, decimal otherwise. -/
def wordInteger? : List Char → Option Nat
  | ['0'] => some 0
  | '0' :: 'b' :: digits => valueTo? 2 (withoutLines digits)
  | '0' :: 'x' :: digits => valueTo? 16 (withoutLines digits)
  | '0' :: digits => valueTo? 8 ('0' :: withoutLines digits)
  | s =>
    match sixtieths? s with
    | some (first, others) =>
      some (others.foldl (fun value part => value * 60 + digitsValue part)
        (digitsValue (withoutLines first)))
    | none =>
      if startsWithDigit s && s.all isDigitOrLine then some (digitsValue (withoutLines s)) else none

/-- Whether a word announces a base, but has no digits. -/
def isBaseOnly (word : List Char) : Bool :=
  match (splitSign word).2 with
  | '0' :: base :: lines => (base == 'b' || base == 'x') && !lines.isEmpty && lines.all (· == '_')
  | _ => false

/-- A number in sixtieths with a point at its end, added up from the last part. -/
def wordSixtieths? (s : List Char) : Option Float := do
  let places ← match s.dropWhile (· ≠ '.') with
    | '.' :: places => if places.all isDigitOrLine then some places else none
    | _ => none
  let (first, others) ← sixtieths? (s.takeWhile (· ≠ '.'))
  let last := DecimalWord.mk (others.getLastD []) (some places) none
  let earlier := first :: others.dropLast
  let (sum, _) := earlier.foldr
    (fun part (sum, base) =>
      (sum + (DecimalWord.mk part none none).toFloat false * Float.ofNat base, base * 60))
    (last.toFloat false, 60)
  return sum

/-- A decimal of a settings file has a point, and its exponent has a sign.  Without a digit before
the point it has none itself and starts with a digit after it. -/
def wordDecimal? (signed negative : Bool) (s : List Char) : Option Float := do
  let d ← DecimalWord.ofChars s
  let places ← d.places
  let ordered := if d.whole.isEmpty then !signed && startsWithDigit places
    else startsWithDigit d.whole
  let complete := match d.exponent with
    | some (none, _) => false
    | _ => true
  if ordered && complete then some (d.toFloat negative) else none

/-- A number of a settings file. -/
def wordNumber? (word : List Char) : Option Datum :=
  let (negative, rest) := splitSign word
  let signed := rest.length < word.length
  let withSign (x : Float) : Datum := .float (if negative then -x else x)
  match wordDecimal? signed negative rest, wordSixtieths? rest, wordInteger? rest with
  | some x, _, _ => some (.float x)
  | _, some x, _ => some (withSign x)
  | _, _, some n => some (.int (if negative then -(n : Int) else n))
  | none, none, none =>
    if [".inf", ".Inf", ".INF"].contains (String.ofList rest) then some (withSign (1.0 / 0.0))
    else if !signed && [".nan", ".NaN", ".NAN"].contains (String.ofList rest) then
      some (.float (0.0 / 0.0))
    else none

/-- A word of a settings file; one that is nothing else is a text. -/
def wordValue (word : String) : Datum :=
  if ["null", "Null", "NULL", "~", ""].contains word then .null
  else if ["true", "True", "TRUE", "yes", "Yes", "YES", "on", "On", "ON"].contains word then
    .bool true
  else if ["false", "False", "FALSE", "no", "No", "NO", "off", "Off", "OFF"].contains word then
    .bool false
  else (wordNumber? word.toList).getD (.text word)

example : wordInteger? "0x1_F".toList = some 31 := by decide +kernel

example : wordInteger? "1:30".toList = some 90 := by decide +kernel

/-- An exponent does not make a number of a word without a point. -/
example : (wordNumber? "1e3".toList).isNone := by decide +kernel

end MusicAlgebra.Document
