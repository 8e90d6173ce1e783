/-!
# Code points

A text is a sequence of code points.  Nearly all of them are characters, which stand for themselves.
The surrogates are none, but a document may name them; a text keeps a surrogate as the mark, which
is the last character of all, and a private character after it, and the mark itself as two marks.
-/

namespace MusicAlgebra.Text

/-- Whether a code point is a surrogate. -/
def isSurrogate (code : Nat) : Bool := 0xd800 ≤ code && code < 0xe000

/-- The character that announces a surrogate. -/
def mark : Char := Char.ofNat 0x10ffff

/-- How far a surrogate lies below the private character that it is kept as. -/
def surrogateOffset : Nat := 0x800

/-- The characters that keep a code point, if there is such a code point. -/
def keep? (code : Nat) : Option (List Char) :=
  if isSurrogate code then some [mark, Char.ofNat (code + surrogateOffset)]
  else if code = mark.toNat then some [mark, mark]
  else if code.isValidChar then some [Char.ofNat code]
  else none

/-- The characters that keep a character. -/
def keepCharacter (c : Char) : List Char := if c = mark then [mark, mark] else [c]

/-- The text that keeps some characters. -/
def ofCharacters (s : List Char) : String := String.ofList (s.flatMap keepCharacter)

/-- The text that keeps the characters of a string. -/
def ofPlain (s : String) : String := if s.contains mark then ofCharacters s.toList else s

/-- The code points of a text. -/
def codes : List Char → List Nat
  | [] => []
  | [c] => [c.toNat]
  | c :: kept :: rest =>
    if c = mark then
      (if kept = mark then mark.toNat else kept.toNat - surrogateOffset) :: codes rest
    else c.toNat :: codes (kept :: rest)

/-- The code point that a high and a low surrogate encode together. -/
def joined? (high low : Nat) : Option Nat :=
  if 0xd800 ≤ high ∧ high < 0xdc00 ∧ 0xdc00 ≤ low ∧ low < 0xe000 then
    some (0x10000 + (high - 0xd800) * 0x400 + (low - 0xdc00))
  else none

end MusicAlgebra.Text
