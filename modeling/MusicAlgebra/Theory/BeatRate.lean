import MusicAlgebra.Rejection

/-!
# Beat rates

A beat rate is a number of quarter notes per minute.  It fixes how many seconds a whole note lasts,
and so turns exact times into the seconds at which a renderer sends its messages.  An integer rate
is kept as it was given, since messages show it that way.
-/

namespace MusicAlgebra

/-- Quarter notes per minute: a positive integer, or a `Float` that is not zero or less. -/
inductive BeatRate where
  | whole (rate : Int) (pos : 0 < rate)
  | real (rate : Float) (usable : ¬rate ≤ 0.0)

/-- Why a time cannot be given in seconds. -/
inductive TimeFault where
  | rateTooLarge
  | timeTooLarge
  deriving DecidableEq, Repr

def TimeFault.message : TimeFault → String
  | rateTooLarge => "int too large to convert to float"
  | timeTooLarge => "integer division result too large for a float"

namespace BeatRate

/-- The rate that holds where none is set. -/
def standard : BeatRate := .real 120.0 (by decide +kernel)

/-- The rate that a datum stands for. -/
def ofDatum : Datum → Except Rejection BeatRate
  | .int rate =>
    if pos : 0 < rate then .ok (whole rate pos) else .error (.beatRateInvalid (.int rate))
  | .float rate =>
    if usable : ¬rate ≤ 0.0 then .ok (real rate usable) else .error (.beatRateInvalid (.float rate))
  | given => .error (.beatRateInvalid given)

/-- A rate as the number that it is. -/
def datum : BeatRate → Datum
  | whole rate _ => .int rate
  | real rate _ => .float rate

@[simp] theorem ofDatum_datum (b : BeatRate) : ofDatum b.datum = .ok b := by
  cases b with
  | whole rate pos => simp [datum, ofDatum, pos]
  | real rate usable => simp [datum, ofDatum, usable]

def text : BeatRate → String
  | whole rate _ => toString rate
  | real rate _ => Number.shortestText rate

/-- Whether a rate can be written. -/
def isWritable [Limits] : BeatRate → Bool
  | whole rate _ => Number.isWritable rate
  | real _ _ => true

/-- How many seconds a whole note lasts. -/
def secondsPerWhole : BeatRate → Except TimeFault Float
  | whole rate _ =>
    match Number.nearest? rate with
    | some rate => .ok (240.0 / rate)
    | none => .error .rateTooLarge
  | real rate _ => .ok (240.0 / rate)

/-- A time in whole notes as seconds. -/
def seconds (b : BeatRate) (time : Rat) : Except TimeFault Float :=
  match Number.nearest? time with
  | some time => b.secondsPerWhole.map (time * ·)
  | none => .error .timeTooLarge

end BeatRate

end MusicAlgebra
