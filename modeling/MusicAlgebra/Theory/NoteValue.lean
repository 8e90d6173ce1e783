/-!
# Note values

The lengths that have a name, in whole notes.  A dot lengthens a value by its half, two dots by its
half and its quarter, and a triplet takes two thirds.
-/

namespace MusicAlgebra

inductive NoteValue where
  | zero | brevis | whole | half | quarter | eighth | sixteenth | thirtysecond | sixtyfourth
  | dottedWhole | dottedHalf | dottedQuarter | dottedEighth | dottedSixteenth | dottedThirtysecond
  | doubleDottedHalf | doubleDottedQuarter | doubleDottedEighth
  | tripletEighth | tripletQuarter
  deriving DecidableEq, Repr

namespace NoteValue

def length : NoteValue → Rat
  | zero => 0
  | brevis => 2
  | whole => 1
  | half => 1 / 2
  | quarter => 1 / 4
  | eighth => 1 / 8
  | sixteenth => 1 / 16
  | thirtysecond => 1 / 32
  | sixtyfourth => 1 / 64
  | dottedWhole => 3 / 2
  | dottedHalf => 3 / 4
  | dottedQuarter => 3 / 8
  | dottedEighth => 3 / 16
  | dottedSixteenth => 3 / 32
  | dottedThirtysecond => 3 / 64
  | doubleDottedHalf => 7 / 8
  | doubleDottedQuarter => 7 / 16
  | doubleDottedEighth => 7 / 32
  | tripletEighth => 1 / 12
  | tripletQuarter => 1 / 6

def name : NoteValue → String
  | zero => "ZERO"
  | brevis => "BREVIS"
  | whole => "WHOLE"
  | half => "HALF"
  | quarter => "QUARTER"
  | eighth => "EIGHTH"
  | sixteenth => "SIXTEENTH"
  | thirtysecond => "THIRTYSECOND"
  | sixtyfourth => "SIXTYFOURTH"
  | dottedWhole => "DOTTED_WHOLE"
  | dottedHalf => "DOTTED_HALF"
  | dottedQuarter => "DOTTED_QUARTER"
  | dottedEighth => "DOTTED_EIGHTH"
  | dottedSixteenth => "DOTTED_SIXTEENTH"
  | dottedThirtysecond => "DOTTED_THIRTYSECOND"
  | doubleDottedHalf => "DOUBLE_DOTTED_HALF"
  | doubleDottedQuarter => "DOUBLE_DOTTED_QUARTER"
  | doubleDottedEighth => "DOUBLE_DOTTED_EIGHTH"
  | tripletEighth => "TRIPLET_EIGHTH"
  | tripletQuarter => "TRIPLET_QUARTER"

def all : List NoteValue :=
  [zero, brevis, whole, half, quarter, eighth, sixteenth, thirtysecond, sixtyfourth, dottedWhole,
    dottedHalf, dottedQuarter, dottedEighth, dottedSixteenth, dottedThirtysecond, doubleDottedHalf,
    doubleDottedQuarter, doubleDottedEighth, tripletEighth, tripletQuarter]

end NoteValue

end MusicAlgebra
