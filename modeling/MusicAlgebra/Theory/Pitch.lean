import MusicAlgebra.Rejection
import MusicAlgebra.Text.Blank
import MusicAlgebra.Text.Digit

/-!
# Pitches

A pitch is a spelling in an octave whose absolute number lies in the MIDI range; middle C, written
`C4`, has number 60.  A pitch is built from scientific notation, from a spelling and an octave, or
from its number, in which case it is spelled with sharps.
-/

namespace MusicAlgebra

/-- The number of a spelling in an octave. -/
def Spelling.absolute (s : Spelling) (octave : Int) : Int := s.offset + 12 * (octave + 1)

/-- A spelling in an octave, inside the MIDI range. -/
structure Pitch where
  spelling : Spelling
  octave : Int
  inRange : 0 ≤ spelling.absolute octave ∧ spelling.absolute octave ≤ 127
  deriving DecidableEq

namespace Pitch

/-- The MIDI number of a pitch. -/
def absolute (p : Pitch) : Int := p.spelling.absolute p.octave

theorem absolute_nonneg (p : Pitch) : 0 ≤ p.absolute := p.inRange.1

theorem absolute_le (p : Pitch) : p.absolute ≤ 127 := p.inRange.2

/-- The pitch with a spelling and an octave. -/
def ofSpelling (s : Spelling) (octave : Int) : Except Rejection Pitch :=
  if inRange : 0 ≤ s.absolute octave ∧ s.absolute octave ≤ 127 then .ok ⟨s, octave, inRange⟩
  else .error (.pitchOutOfRange s octave (s.absolute octave))

/-- The spelling of an absolute number with sharps, and its octave. -/
def sharpSpelling (number : Int) : Spelling × Int :=
  (Spelling.ofPitchClass ⟨(number % 12).toNat, by omega⟩, number / 12 - 1)

theorem absolute_sharpSpelling (number : Int) :
    (sharpSpelling number).1.absolute (sharpSpelling number).2 = number := by
  simp only [sharpSpelling, Spelling.absolute, Spelling.offset_ofPitchClass]
  omega

/-- The pitch with an absolute number, spelled with sharps. -/
def ofAbsolute (number : Int) : Except Rejection Pitch :=
  if inRange : 0 ≤ number ∧ number ≤ 127 then
    let spelled := sharpSpelling number
    .ok ⟨spelled.1, spelled.2, by rw [absolute_sharpSpelling]; exact inRange⟩
  else .error (.absoluteOutOfRange number)

theorem absolute_of_ofAbsolute {number : Int} {p : Pitch} (h : ofAbsolute number = .ok p) :
    p.absolute = number := by
  unfold ofAbsolute at h
  split at h
  · cases h
    exact absolute_sharpSpelling number
  · cases h

/-- The pitch some semitones away, spelled with sharps. -/
def transpose (p : Pitch) (semitones : Int) : Except Rejection Pitch :=
  ofAbsolute (p.absolute + semitones)

/-- Scientific notation: the spelling followed by the octave. -/
def name (p : Pitch) : String := p.spelling.name ++ toString p.octave

/-- An octave as it is written: whether a minus sign precedes it, and the values of its digits. -/
structure WrittenOctave where
  negative : Bool
  digits : List Nat

def WrittenOctave.value (o : WrittenOctave) : Int :=
  let magnitude : Nat := o.digits.foldl (fun value digit => value * 10 + digit) 0
  if o.negative then -magnitude else magnitude

/-- An octave: at least one digit, of any script, with a minus sign where it lies below zero. -/
def readOctave (s : List Char) : Option WrittenOctave :=
  let (negative, symbols) := match s with
    | '-' :: symbols => (true, symbols)
    | symbols => (false, symbols)
  if symbols.isEmpty then none
  else (symbols.mapM Text.digit?).map fun digits => { negative, digits }

/-- The spelling and the octave of a text in scientific notation.  The letter may be small; a small
`b` after it is a flat. -/
def readScientific : List Char → Option (Spelling × WrittenOctave)
  | [] => none
  | symbol :: rest => do
    let letter ← Letter.ofSymbol? symbol.toUpper
    let isAccidental := fun c : Char => c == '#' || c == 'b'
    let accidental ← Accidental.ofSymbols? (rest.takeWhile isAccidental)
    let octave ← readOctave (rest.dropWhile isAccidental)
    return (⟨letter, accidental⟩, octave)

/-- The pitch that a text in scientific notation names, blanks around it being ignored. -/
def parse [Limits] (text : String) : Except Rejection Pitch :=
  match readScientific (Text.trim text.toList) with
  | some (spelling, octave) =>
    if Number.admits octave.digits.length then ofSpelling spelling octave.value
    else .error .tooManyDigits
  | none => .error (.unreadablePitch text)

/-- The spelling that an unchecked pitch class names. -/
def spellingOf (given : Datum) : Except Rejection Spelling :=
  if given.isNameable then
    match given with
    | .text name => ((Spelling.ofName? name).map Except.ok).getD (.error (.unknownPitchClass given))
    | _ => .error (.unknownPitchClass given)
  else .error (.unusableName given)

/-- The pitch with an unchecked pitch class and an unchecked octave. -/
def build (pitchClass octave : Datum) : Except Rejection Pitch := do
  let spelling ← spellingOf pitchClass
  match octave with
  | .int number => ofSpelling spelling number
  | _ => .error (.octaveNotInteger octave)

/-- The pitch that a datum stands for: scientific notation or an absolute number. -/
def ofDatum [Limits] : Datum → Except Rejection Pitch
  | .text scientific => parse scientific
  | .int number => ofAbsolute number
  | given => .error (.notPitch given)

/-- Frequency in Hertz in equal temperament, the A of octave 4 having 440. -/
def frequency (p : Pitch) : Float :=
  440.0 * Float.pow 2.0 (Float.ofInt (p.absolute - 69) / 12.0)

end Pitch

end MusicAlgebra
