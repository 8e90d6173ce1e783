import MusicAlgebra.Midi.Failure
import MusicAlgebra.Performance.Context

/-!
# Why playing came to no regular end
-/

namespace MusicAlgebra

inductive Halt where
  | refused (cause : Rejection)
  | unperformed (cause : PerformFailure)
  | failed (cause : RenderFailure)
  /-- A number that has to be told has too many digits to be written. -/
  | unwritable
  /-- The task that played was given up. -/
  | abandoned
  /-- The user broke the program off. -/
  | brokenOff
  deriving Repr

def Halt.message : Halt → String
  | refused cause => cause.message
  | unperformed cause => cause.message
  | failed cause => cause.message
  | unwritable => "A number has too many digits"
  | abandoned => "Playing was given up"
  | brokenOff => "Playing was broken off"

/-- What comes of a failure when it is told. -/
def Halt.told [Limits] (cause : RenderFailure) :
    Halt := if cause.isWritable then failed cause else unwritable

/-- The end of a task that was given up while it no longer listened: it comes to no regular end, but
what went wrong before is not hidden. -/
def Halt.afterGivingUp {α : Type} : Except Halt α → Except Halt α
  | .ok _ => .error .abandoned
  | .error halt => .error halt

end MusicAlgebra
