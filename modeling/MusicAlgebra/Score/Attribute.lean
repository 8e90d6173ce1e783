import MusicAlgebra.Score.Amount
import MusicAlgebra.Theory.Loudness

/-!
# Phrase attributes

Attributes are attached to a passage and shape how it is performed.  Loudness sets the volume of
the whole phrase, ritardando and accelerando stretch its time, and everything else is left to the
player.  Each attribute can only be built with arguments that make sense, so whoever performs it
need not check them again.
-/

namespace MusicAlgebra

/-- How fast a trill alternates: by the length of its notes or by their number. -/
inductive TrillSpeed where
  | byLength (length : Scale)
  | byCount (count : Nat) (pos : 0 < count)
  deriving DecidableEq

/-- One way of shaping a phrase. -/
inductive Attribute where
  /-- Multiplies the volume of every note. -/
  | accent (factor : Amount)
  /-- Lets the volume grow to `1 + amount` times itself at the end of the phrase. -/
  | crescendo (amount : Amount)
  /-- Lets the volume fade to `1 - amount` times itself at the end of the phrase. -/
  | diminuendo (amount : Amount) (le_one : amount.val ≤ 1)
  /-- Sets the volume of the phrase. -/
  | loudness (volume : Volume)
  /-- Sets the volume of the phrase by a standard marking. -/
  | dynamic (standard : StandardLoudness)
  /-- Slows down gradually; the phrase lasts `1 + amount` times as long. -/
  | ritardando (amount : Amount)
  /-- Speeds up gradually; the phrase lasts `1 - amount` times as long.  Past one half the last
  notes would get a negative length. -/
  | accelerando (amount : Amount) (le_half : amount.val ≤ 1 / 2)
  /-- Multiplies every sounding length. -/
  | staccato (fraction : Amount)
  /-- Multiplies every sounding length, usually by a little more than one. -/
  | legato (fraction : Amount)
  /-- Like `legato`, except that the notes that start last keep their length. -/
  | slurred (fraction : Amount)
  /-- Sustains every note until the last one ends. -/
  | pedal
  /-- A marking without effect on the performance. -/
  | marking (name : String) (named : name ≠ "")
  /-- Alternates every note with its upper neighbour in the key. -/
  | trill (speed : TrillSpeed)
  /-- Principal, upper neighbour, principal. -/
  | mordent
  /-- Principal, lower neighbour, principal. -/
  | invertedMordent
  /-- Principal and upper neighbour twice, then the principal. -/
  | doubleMordent
  /-- Rolls every chord upwards. -/
  | arpeggioUp
  /-- Rolls every chord downwards. -/
  | arpeggioDown
  /-- Moves every note by degrees of the key. -/
  | diatonicTranspose (degrees : Int)
  deriving DecidableEq

namespace Attribute

/-- The volume that an attribute sets for its whole phrase. -/
def volume? : Attribute → Option Volume
  | loudness volume => some volume
  | dynamic standard => some standard.volume
  | _ => none

/-- By how much an attribute stretches the time of its phrase. -/
def timeFactor : Attribute → Scale
  | ritardando amount =>
    ⟨1 + amount.val, by have := amount.nonneg; grind⟩
  | accelerando amount le_half => ⟨1 - amount.val, by grind⟩
  | _ => 1

/-- By how much all attributes together stretch the time of their phrase. -/
def totalTimeFactor (attributes : List Attribute) : Scale :=
  attributes.foldl (fun factor shaping => factor * shaping.timeFactor) 1

/-! ## Checked construction -/

def accent? [Limits] (factor : Datum) : Except Rejection Attribute :=
  accent <$> factor.toAmount "Accent factor"

def crescendo? [Limits] (amount : Datum) : Except Rejection Attribute :=
  crescendo <$> amount.toAmount "Crescendo amount"

def diminuendo? [Limits] (amount : Datum) : Except Rejection Attribute := do
  let amount ← amount.toAmount "Diminuendo amount"
  if le_one : amount.val ≤ 1 then .ok (diminuendo amount le_one) else .error .diminuendoAboveOne

def loudness? : Datum → Except Rejection Attribute
  | .int n =>
    ((Volume.ofInt? n).map fun volume => .ok (loudness volume)).getD
      (.error (.loudnessOutOfRange (.int n)))
  | given => .error (.loudnessOutOfRange given)

/-- The dynamic of a standard marking, which is given by its name. -/
def dynamic? : Datum → Except Rejection Attribute
  | .text name =>
    ((StandardLoudness.ofName? name).map fun standard => .ok (dynamic standard)).getD
      (.error (.notMarking (.text name)))
  | given => .error (.notMarking given)

def ritardando? [Limits] (amount : Datum) : Except Rejection Attribute :=
  ritardando <$> amount.toAmount "Ritardando amount"

def accelerando? [Limits] (amount : Datum) : Except Rejection Attribute := do
  let amount ← amount.toAmount "Accelerando amount"
  if le_half : amount.val ≤ 1 / 2 then .ok (accelerando amount le_half)
  else .error .accelerandoAboveHalf

def staccato? [Limits] (fraction : Datum) : Except Rejection Attribute :=
  staccato <$> fraction.toAmount "Staccato fraction"

def legato? [Limits] (fraction : Datum) : Except Rejection Attribute :=
  legato <$> fraction.toAmount "Legato fraction"

def slurred? [Limits] (fraction : Datum) : Except Rejection Attribute :=
  slurred <$> fraction.toAmount "Slurred fraction"

def marking? : Datum → Except Rejection Attribute
  | .text name =>
    if named : name ≠ "" then .ok (marking name named) else .error (.markingUnnamed (.text name))
  | given => .error (.markingUnnamed given)

/-- A positive integer as a natural number. -/
def positiveCount? : Datum → Option { count : Nat // 0 < count }
  | .int n => if pos : 0 < n then some ⟨n.toNat, by omega⟩ else none
  | _ => none

/-- A trill by exactly one of the length and the number of its notes. -/
def trill? [Limits] (length count : Datum) : Except Rejection Attribute :=
  match length, count with
  | .null, .null => .error .trillUnderdetermined
  | .null, count =>
    match positiveCount? count with
    | some ⟨count, pos⟩ => .ok (trill (.byCount count pos))
    | none => .error .trillCountNotPositive
  | length, .null => do
    let length ← length.toRat "Trill note duration"
    if pos : 0 < length then .ok (trill (.byLength ⟨length, pos⟩))
    else .error .trillLengthNotPositive
  | _, _ => .error .trillUnderdetermined

def diatonicTranspose? : Datum → Except Rejection Attribute
  | .int degrees => .ok (diatonicTranspose degrees)
  | given => .error (.degreesNotInteger given)

/-- The fraction of a staccato that is given none. -/
def usualStaccato : Amount := ⟨1 / 2, by decide +kernel⟩

/-- The fraction of a legato or a slur that is given none. -/
def usualLegato : Amount := ⟨5 / 4, by decide +kernel⟩

end Attribute

end MusicAlgebra
