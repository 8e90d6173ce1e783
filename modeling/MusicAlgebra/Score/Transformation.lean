import MusicAlgebra.Score.Length

/-!
# Transformations of the whole tree

Removing silent leaves, transposing the written pitches, and reversing in time.  Transposition is
the only one that can fail: a pitch may leave the MIDI range.
-/

namespace MusicAlgebra.Music

/-- A composition without an operand that is a note or a rest of no length. -/
def joinNonzero (join : Music → Music → Music) (left right : Music) : Music :=
  if left.isZero then right else if right.isZero then left else join left right

/-- The music without the zero-length notes and rests that stand inside compositions. -/
def removeZeros : Music → Music
  | sequential left right => joinNonzero sequential left.removeZeros right.removeZeros
  | parallel left right => joinNonzero parallel left.removeZeros right.removeZeros
  | modified modifier inner => modified modifier inner.removeZeros
  | leaf => leaf

/-- The music with every written pitch shifted by semitones and spelled with sharps. -/
def transposePitches (semitones : Int) : Music → Except Rejection Music
  | note n => do
    let pitch ← n.pitch.transpose semitones
    return note { n with pitch }
  | rest length => return rest length
  | sequential left right => do
    let left ← left.transposePitches semitones
    let right ← right.transposePitches semitones
    return sequential left right
  | parallel left right => do
    let left ← left.transposePitches semitones
    let right ← right.transposePitches semitones
    return parallel left right
  | modified modifier inner => do
    let inner ← inner.transposePitches semitones
    return modified modifier inner

/-- Music after a silence. -/
def delayed (length : Amount) (m : Music) : Music := sequential (rest length) m

/-- The music reversed in time.  The shorter side of a parallel composition is delayed, so that
both sides still end together where they began together. -/
def retrograde : Music → Music
  | sequential left right => sequential right.retrograde left.retrograde
  | parallel left right =>
    if right.duration < left.duration then
      parallel left.retrograde (delayed (left.duration - right.duration) right.retrograde)
    else if left.duration < right.duration then
      parallel (delayed (right.duration - left.duration) left.retrograde) right.retrograde
    else parallel left.retrograde right.retrograde
  | modified modifier inner => modified modifier inner.retrograde
  | leaf => leaf

end MusicAlgebra.Music
