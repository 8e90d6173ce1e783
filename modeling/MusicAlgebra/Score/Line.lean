import MusicAlgebra.Score.Transformation

/-!
# Lines and chords

A list of parts becomes a line or a chord as a balanced tree, which stays shallow however many parts
there are; by associativity the grouping makes no difference.  Read backwards, a piece of music is
the line of its sequential operands.  Melodic inversion mirrors the notes of that line.
-/

namespace MusicAlgebra

/-- Combine a list pairwise in a balanced way, from left to right. -/
def balanced {α : Type} (combine : α → α → α) (empty : α) (parts : List α) : α :=
  match parts with
  | [] => empty
  | [part] => part
  | first :: second :: rest =>
    let parts := first :: second :: rest
    let half := parts.length / 2
    combine (balanced combine empty (parts.take half)) (balanced combine empty (parts.drop half))
termination_by parts.length
decreasing_by
  · simp only [List.length_take, List.length_cons]
    omega
  · simp only [List.length_drop, List.length_cons]
    omega

namespace Music

/-- The parts one after another, silence of no length if there are none. -/
def line (parts : List Music) : Music := balanced sequential (rest 0) parts

/-- The parts together, silence of no length if there are none. -/
def chord (parts : List Music) : Music := balanced parallel (rest 0) parts

/-- The music repeated. -/
def times (m : Music) (count : Nat) : Music := line (List.replicate count m)

/-- Whether the music is the unit of sequential composition. -/
def isUnit : Music → Bool
  | rest length => length == 0
  | _ => false

/-- The sequential operands of the music from left to right, units left out. -/
def toLine (m : Music) : List Music := (flatten .sequential m).filter (!·.isUnit)

/-- One part of a line mirrored: a note with number `n` gets the number `axis - n`.  Parts that are
no plain notes are kept. -/
def mirror (axis : Int) : Music → Except Rejection Music
  | note n => do
    let pitch ← Pitch.ofAbsolute (axis - n.pitch.absolute)
    return note { n with pitch }
  | part => return part

/-- The line of the music mirrored around its first note.  Music whose line begins with something
else is its own inversion. -/
def invert (m : Music) : Except Rejection Music :=
  match m.toLine with
  | note first :: others =>
    line <$> (note first :: others).mapM (mirror (2 * first.pitch.absolute))
  | _ => .ok m

/-- The inversion, reversed in time. -/
def retroInvert (m : Music) : Except Rejection Music := retrograde <$> m.invert

/-- The reversal, inverted. -/
def invertRetro (m : Music) : Except Rejection Music := m.retrograde.invert

/-- A line of notes that share length and volume. -/
def lineOfPitches [Limits] (pitches : List Datum) (length volume : Datum) :
    Except Rejection Music := do
  let notes ← pitches.mapM fun pitch => Note.build pitch length volume
  return line (notes.map note)

/-- The music repeated an unchecked number of times. -/
def times? [Limits] (m : Music) : Datum → Except Rejection Music
  | .int count =>
    if 0 ≤ count then
      ((partCount count).map m.times).mapError .tooManyParts
    else .error (.repeatCountInvalid (.int count))
  | given => .error (.repeatCountInvalid given)

end Music

end MusicAlgebra
