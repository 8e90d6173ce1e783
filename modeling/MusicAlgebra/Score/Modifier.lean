import MusicAlgebra.Score.Attribute
import MusicAlgebra.Theory.Key

/-!
# Modifiers

A modifier changes how everything inside a passage is interpreted, and nested modifiers accumulate.
Instruments and player names are looked up only when the passage is performed, so a score can be
written before its players exist; the other arguments are checked here.
-/

namespace MusicAlgebra

inductive Modifier where
  /-- Plays `scale` times as fast. -/
  | tempo (scale : Scale)
  /-- Shifts every pitch by semitones. -/
  | transpose (semitones : Int)
  /-- Plays with an instrument, by name or program number. -/
  | instrument (given : Datum)
  /-- Sets the key that ornaments use. -/
  | key (key : Key)
  /-- Selects a player by name. -/
  | player (name : Datum)
  /-- Raises or lowers the volume of the context. -/
  | dynamics (delta : Int)
  /-- Shapes the passage by attributes, in order. -/
  | phrase (attributes : List Attribute)

namespace Modifier

/-- A length inside the modifier as it is measured from outside. -/
def outward (m : Modifier) (length : Amount) : Amount :=
  match m with
  | tempo scale => length.dividedBy scale
  | phrase attributes => length.times (Attribute.totalTimeFactor attributes)
  | _ => length

/-- A length outside the modifier in the time of the passage inside.  A ritardando or accelerando is
spread evenly over the phrase, so that the passage gets exactly the length that was asked for. -/
def inward (m : Modifier) (length : Amount) : Amount :=
  match m with
  | tempo scale => length.times scale
  | phrase attributes => length.dividedBy (Attribute.totalTimeFactor attributes)
  | _ => length

/-- Whether two modifiers are equal.  Unchecked names are compared as data. -/
def agrees : Modifier → Modifier → Bool
  | tempo a, tempo b => a == b
  | transpose a, transpose b => a == b
  | instrument a, instrument b => a == b
  | key a, key b => a == b
  | player a, player b => a == b
  | dynamics a, dynamics b => a == b
  | phrase a, phrase b => a == b
  | _, _ => false

/-! ## Checked construction -/

def tempo? [Limits] (scale : Datum) : Except Rejection Modifier := do
  let scale ← scale.toRat "Tempo scale"
  if pos : 0 < scale then .ok (tempo ⟨scale, pos⟩) else .error .tempoNotPositive

def transpose? : Datum → Except Rejection Modifier
  | .int semitones => .ok (transpose semitones)
  | given => .error (.transpositionNotInteger given)

def dynamics? : Datum → Except Rejection Modifier
  | .int delta => .ok (dynamics delta)
  | given => .error (.dynamicsNotInteger given)

def key? (tonic mode : Datum) : Except Rejection Modifier := key <$> Key.build tonic mode

end Modifier

end MusicAlgebra
