import MusicAlgebra.Performance.Event
import MusicAlgebra.Score.Music
import MusicAlgebra.Theory.Instrument

/-!
# Interpretation context

The context says how a node of a score is to be read: when it starts, at which tempo, transposition
and volume, on which instrument, by which player and in which key.  Modifiers derive new contexts
and never change the old one.
-/

namespace MusicAlgebra

/-- Why music cannot be performed. -/
inductive PerformFailure where
  | unknownInstrument (given : Datum)
  | playerNotFound (name : Datum)
  /-- A list or a mapping was given for the name of a player. -/
  | unusableName (given : Datum)
  /-- A value that is no modifier was applied to a context. -/
  | unsupportedModifier (given : Datum)
  /-- A phrase was applied to a context; it shapes events and has no effect there. -/
  | phraseOnContext
  | notPerformable (given : Datum)
  /-- Lengths cannot be divided by a tempo of zero. -/
  | stoppedTempo
  /-- A volume in its context is too large to be rounded. -/
  | volumeTooLarge
  /-- A trill has too many notes. -/
  | tooManyParts (excess : Excess)
  /-- The duration of the whole has too many digits to be written. -/
  | unwritableDuration
  /-- Another failure has to tell of a number that has too many digits to be written. -/
  | unwritable
  deriving Repr

namespace PerformFailure

def message : PerformFailure → String
  | unknownInstrument given => s!"Unknown instrument: {given.describe}"
  | playerNotFound name => s!"Player not found: {name.describe}"
  | unusableName given => s!"{given.describe} cannot be used as a name"
  | unsupportedModifier given => s!"Unsupported modifier: {given.describe}"
  | phraseOnContext => "Unsupported modifier: Phrase(attributes=())"
  | notPerformable given => s!"Cannot perform {given.describe}"
  | stoppedTempo => "The tempo is zero"
  | volumeTooLarge => "The volume is too large"
  | tooManyParts excess => excess.message
  | unwritableDuration => "The duration has too many digits"
  | unwritable => "A number has too many digits"

/-- Whether all numbers that a failure tells of can be written. -/
def isWritable [Limits] : PerformFailure → Bool
  | unknownInstrument given | playerNotFound given | unsupportedModifier given
  | notPerformable given => given.isWritable
  | unusableName _ | phraseOnContext | stoppedTempo | volumeTooLarge | tooManyParts _
  | unwritableDuration | unwritable => true

/-- What comes of a failure when it is told. -/
def told [Limits] (failure : PerformFailure) : PerformFailure :=
  if failure.isWritable then failure else unwritable

end PerformFailure

/-- The state of the interpretation at one node.  Lengths are divided by the tempo. -/
structure Context where
  startTime : Rat := 0
  tempo : Rat := 1
  transposition : Int := 0
  volume : Int := 127
  instrument : String := Instrument.standard.name
  player : Datum := .text "default"
  key : Key := default

namespace Context

/-- A written length as performance time. -/
def scale (c : Context) (length : Rat) : Except PerformFailure Rat :=
  if c.tempo = 0 then .error .stoppedTempo else .ok (length / c.tempo)

/-- The volume of a note in this context: in proportion to the context's volume, rounded to the
nearest integer.  No quotient by 127 lies halfway between two integers; one that no `Float` is near
to is not rounded at all. -/
def scaleVolume (c : Context) (volume : Int) : Except PerformFailure Int :=
  let product := volume * c.volume
  if Number.beyondFloats * 127 ≤ product.natAbs then .error .volumeTooLarge
  else .ok (Volume.clamp ((2 * product + 127) / 254))

/-- The event that a note denotes when nothing interprets it. -/
def literalEvent (c : Context) (n : Note) : Except PerformFailure Event := do
  let duration ← c.scale n.length.val
  let volume ← c.scaleVolume n.volume.val
  return {
    onset := c.startTime
    duration
    pitch := n.pitch.absolute + c.transposition
    volume
    instrument := c.instrument }

/-- Volumes of the MIDI range can be rounded. -/
theorem scaleVolume_of_le {c : Context} {volume : Int} (loud : volume.natAbs ≤ 127)
    (context_loud : c.volume.natAbs ≤ 127) :
    c.scaleVolume volume = .ok (Volume.clamp ((2 * (volume * c.volume) + 127) / 254)) := by
  have far : 127 * 127 < Number.beyondFloats * 127 := by decide +kernel
  have product : volume.natAbs * c.volume.natAbs ≤ 127 * 127 := Nat.mul_le_mul loud context_loud
  rw [scaleVolume, if_neg]
  rw [Int.natAbs_mul]
  exact Nat.not_le.2 (Nat.lt_of_le_of_lt product far)

end Context

end MusicAlgebra
