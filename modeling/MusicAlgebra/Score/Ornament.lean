import MusicAlgebra.Score.Line
import MusicAlgebra.Score.Pieces

/-!
# Ornaments written into the score

A grace note, a trill and a roll replace a note by a line of shorter ones that lasts as long.  They
reach the note through any modifiers around it.  The length of trilled notes is given as it is
measured from outside, so every tempo on the way converts it.
-/

namespace MusicAlgebra

namespace Note

/-- The note preceded by a grace note that takes a fraction of its length. -/
def withGrace [Limits] (n : Note) (offset : Int) (fraction : Datum) : Except Rejection Music := do
  let fraction ← fraction.toRat "Grace note fraction"
  if inside : 0 < fraction ∧ fraction < 1 then
    let pitch ← n.pitch.transpose offset
    let taken : Amount := ⟨fraction, Rat.le_of_lt inside.1⟩
    let left : Amount := ⟨1 - fraction, by grind⟩
    return .sequential (.note { n with pitch, length := n.length * taken })
      (.note { n with length := n.length * left })
  else .error .graceFractionOutOfRange

/-- How a note is to be trilled: the length of the trilled notes or their number. -/
structure TrillRequest where
  interval : Int
  length : Option (Except Rejection Amount)
  count : Datum

/-- The lengths of the notes of a trill that fills a total. -/
def TrillRequest.pieces [Limits] (request : TrillRequest) (total : Amount) :
    Except Rejection (List Amount) :=
  match request.length, request.count with
  | none, .null => .error .trillUnderdetermined
  | none, count =>
    match Attribute.positiveCount? count with
    | some ⟨count, _⟩ =>
      ((evenPieces? total.val count).map fun pieces => pieces.map .nearest).mapError .tooManyParts
    | none => .error .trillCountNotPositive
  | some length, .null => do
    let length ← length
    if length = 0 then .error .trillLengthNotPositive
    else
      ((piecesOfLength? total.val length.val).map fun pieces => pieces.map .nearest).mapError
        .tooManyParts
  | some _, _ => .error .trillUnderdetermined

/-- Notes of the given lengths, alternating between the written pitch and another one. -/
def alternating (n : Note) (other : Pitch) : List Amount → List Note
  | [] => []
  | length :: rest => { n with length } :: alternating { n with pitch := other } n.pitch rest

/-- The note as a line that alternates with the pitch some semitones away. -/
def trilled [Limits] (n : Note) (request : TrillRequest) : Except Rejection Music := do
  let pieces ← request.pieces n.length
  let other ← n.pitch.transpose request.interval
  return .line ((n.alternating other pieces).map .note)

end Note

namespace Music

/-- Music that is a note below its modifiers, with a grace note before it. -/
def graceNote [Limits] (offset : Int) (fraction : Datum) : Music → Except Rejection Music
  | note n => n.withGrace offset fraction
  | modified modifier inner => modified modifier <$> inner.graceNote offset fraction
  | _ => .error .graceWithoutNote

/-- Music that is a note below its modifiers, as a trill. -/
def trillWith [Limits] (request : Note.TrillRequest) : Music → Except Rejection Music
  | note n => n.trilled request
  | modified (.tempo scale) inner =>
    match request.length with
    | some (.error cause) => .error cause
    | some (.ok length) =>
      modified (.tempo scale) <$>
        inner.trillWith { request with length := some (.ok (length.times scale)) }
    | none => modified (.tempo scale) <$> inner.trillWith request
  | modified modifier inner => modified modifier <$> inner.trillWith request
  | _ => .error .trillWithoutNote

/-- A trill by an unchecked length or an unchecked number of its notes, null meaning not given. -/
def trill [Limits] (m : Music) (interval : Int) (length count : Datum) : Except Rejection Music :=
  let given := match length with
    | .null => none
    | length => some length.toLength
  m.trillWith { interval, length := given, count }

/-- A trill on the written pitch alone. -/
def roll [Limits] (m : Music) (length count : Datum) :
    Except Rejection Music := m.trill 0 length count

end Music

end MusicAlgebra
