import MusicAlgebra.Theory.Pitch

/-!
# Keys

A key is a tonic and a mode.  It tells which absolute pitches belong to its scale and moves a pitch
by degrees of that scale, which is what ornaments need.
-/

namespace MusicAlgebra

structure Key where
  tonic : Spelling
  mode : Mode
  deriving DecidableEq, Repr

namespace Key

/-- C major, the key that holds where none is set. -/
instance : Inhabited Key := ⟨⟨⟨.c, .natural⟩, .major⟩⟩

/-- The mode that an unchecked name stands for. -/
def modeOf (given : Datum) : Except Rejection Mode :=
  if given.isNameable then
    match given with
    | .text name => ((Mode.ofName? name).map Except.ok).getD (.error (.unknownMode given))
    | _ => .error (.unknownMode given)
  else .error (.unusableName given)

/-- The key with an unchecked tonic and an unchecked mode; the tonic is checked first. -/
def build (tonic mode : Datum) : Except Rejection Key := do
  let spelling ← Pitch.spellingOf tonic
  let mode ← modeOf mode
  return ⟨spelling, mode⟩

/-- The pitch classes of the scale, from the tonic upwards. -/
def pitchClasses (k : Key) : List Int :=
  k.mode.intervals.map fun interval => (k.tonic.offset % 12 + interval) % 12

theorem pitchClasses_length (k : Key) : k.pitchClasses.length = 7 := by
  simp [pitchClasses, Mode.intervals_length]

/-- Whether an absolute pitch belongs to the scale. -/
def contains (k : Key) (pitch : Int) : Bool := k.pitchClasses.contains (pitch % 12)

/-- How far an absolute pitch lies above the nearest pitch of a class at or below it. -/
def above (pitch pitchClass : Int) : Int := (pitch - pitchClass) % 12

/-- The degree at or just below an absolute pitch, counted from zero: the first of those that lie
least far below it. -/
def nearestDegree (k : Key) (pitch : Int) : Nat :=
  let distances := k.pitchClasses.map (above pitch)
  distances.idxOf (distances.foldl min 12)

/-- An absolute pitch moved by a number of degrees of the scale.

Whole octaves are plain shifts of twelve semitones.  For the rest the pitch is first located at the
degree at or just below it, so a pitch outside the scale moves onto the scale. -/
def diatonicTranspose (k : Key) (pitch degrees : Int) : Int :=
  let octaves := degrees / 7
  let steps := degrees % 7
  if steps = 0 then pitch + 12 * octaves
  else
    let target := (k.nearestDegree pitch + steps.toNat) % 7
    pitch + above (k.pitchClasses.getD target 0) pitch + 12 * octaves

/-- The scale degree just above an absolute pitch. -/
def upperNeighbour (k : Key) (pitch : Int) : Int := k.diatonicTranspose pitch 1

/-- The scale degree below the one that an absolute pitch belongs to. -/
def lowerNeighbour (k : Key) (pitch : Int) : Int := k.diatonicTranspose pitch (-1)

def name (k : Key) : String := k.tonic.name ++ " " ++ k.mode.name

example : (⟨⟨.a, .natural⟩, .minor⟩ : Key).diatonicTranspose 60 1 = 62 := by decide

end Key

end MusicAlgebra
