import MusicAlgebra.Performance.Event
import MusicAlgebra.Score.Attribute
import MusicAlgebra.Score.Pieces
import MusicAlgebra.Theory.Key

/-!
# Ornaments of events

How a player splits, stretches and reorders the events of a phrase: slurs, pedalling, trills,
mordents and arpeggios.  An ornament that splits an event tiles it: each piece starts where the one
before it ends.
-/

namespace MusicAlgebra

namespace Event

/-- The latest onset of some events, none if there are no events. -/
def lastOnset? : List Event → Option Rat
  | [] => none
  | first :: others =>
    some (others.foldl (fun latest e => Performance.later latest e.onset) first.onset)

/-- Multiply the duration of every event but those that start last. -/
def slur (events : List Event) (fraction : Rat) : List Event :=
  match lastOnset? events with
  | none => events
  | some last =>
    events.map fun e => if e.onset < last then { e with duration := e.duration * fraction } else e

/-- Sustain every event until the last one stops. -/
def pedal (events : List Event) : List Event :=
  match events with
  | [] => []
  | _ :: _ =>
    let finish := (Performance.mk events 0).endTime
    events.map fun e => { e with duration := finish - e.onset }

/-- Consecutive events of the given durations in place of one, beginning with its own pitch and
alternating with another one. -/
def alternate (e : Event) (other : Int) : List Rat → List Event
  | [] => []
  | duration :: rest =>
    { e with duration } ::
      alternate { e with onset := e.onset + duration, pitch := other } e.pitch rest

/-- The durations of the notes of a trill. -/
def trillPieces [Limits] (total : Rat) : TrillSpeed → Except Excess (List Rat)
  | .byLength length => piecesOfLength? total length.val
  | .byCount count _ => evenPieces? total count

/-- Why a total cannot be split as asked. -/
inductive SplitFault where
  /-- Neither the length nor the number of the pieces is given. -/
  | unspecified
  /-- The pieces would have no length, or there would be none. -/
  | noPieces
  | tooManyPieces (excess : Excess)
  deriving DecidableEq, Repr

/-- The pieces of a total by their number if it is given, else by their length. -/
def trillPieces? [Limits] (total : Rat) (length : Option Rat) (count : Option Int) :
    Except SplitFault (List Rat) :=
  match count, length with
  | some count, _ =>
    if count = 0 then .error .noPieces else (evenPieces? total count).mapError .tooManyPieces
  | none, some length =>
    if length = 0 then .error .noPieces else (piecesOfLength? total length).mapError .tooManyPieces
  | none, none => .error .unspecified

/-- The event as a trill with the upper neighbour in the key. -/
def trill [Limits] (e : Event) (key : Key) (speed : TrillSpeed) : Except Excess (List Event) :=
  (trillPieces e.duration speed).map (e.alternate (key.upperNeighbour e.pitch))

/-- Every event as a trill; the first that cannot be split decides. -/
def trillAll [Limits] (events : List Event) (key : Key) (speed : TrillSpeed) : Except Excess
    (List Event) :=
  (events.mapM fun e => trill e key speed).map List.flatten

/-- How often a mordent leaves its principal. -/
inductive MordentShape where
  | single
  | double
  deriving DecidableEq, Repr

/-- A mordent plays two eighths of its event, a double one four, and holds the principal for the
rest. -/
def MordentShape.pieces (total : Rat) : MordentShape → List Rat
  | single => [total / 8, total / 8, total * (3 / 4)]
  | double => [total / 8, total / 8, total / 8, total / 8, total / 2]

/-- The event as a mordent with a neighbour in the key. -/
def mordent (e : Event) (neighbour : Int) (shape : MordentShape) : List Event :=
  e.alternate neighbour (shape.pieces e.duration)

/-- Events that start and end together form a chord. -/
def chordKey (e : Event) : Rat × Rat := (e.onset, e.duration)

/-- The chords among some events, in the order of their first notes. -/
def chords (events : List Event) : List (List Event) :=
  (events.map chordKey).eraseDups.map fun key => events.filter (·.chordKey == key)

/-- The direction in which a chord is rolled. -/
inductive Direction where
  | up
  | down
  deriving DecidableEq, Repr

/-- Whether the first of two pitches may come first. -/
def Direction.inOrder (direction : Direction) (first second : Event) : Bool :=
  match direction with
  | up => decide (first.pitch ≤ second.pitch)
  | down => decide (second.pitch ≤ first.pitch)

/-- Consecutive slices of a chord's time, one for each of its notes in order. -/
def slices (onset step : Rat) : List Event → List Event
  | [] => []
  | e :: rest => { e with onset, duration := step } :: slices (onset + step) step rest

/-- The most notes that a chord may have to be rolled. -/
def maxArpeggio : Nat := 8

/-- One chord rolled.  Single notes and larger clusters stay as they are. -/
def rollChord (direction : Direction) (chord : List Event) : List Event :=
  match chord with
  | first :: _ :: _ =>
    if chord.length ≤ maxArpeggio then
      slices first.onset (first.duration / chord.length) (chord.mergeSort direction.inOrder)
    else chord
  | _ => chord

/-- Every chord rolled, sorted by onset. -/
def arpeggio (direction : Direction) (events : List Event) : List Event :=
  sort ((chords events).flatMap (rollChord direction))

end Event

end MusicAlgebra
