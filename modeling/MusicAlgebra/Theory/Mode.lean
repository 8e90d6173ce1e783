/-!
# Seven-note modes

A mode is a scale of seven notes given by their distances from the tonic.  Two modes have a second
name, which stands for the same mode.
-/

namespace MusicAlgebra

inductive Mode where
  | major | minor | dorian | phrygian | lydian | mixolydian | locrian | harmonicMinor | melodicMinor
  deriving DecidableEq, Repr

namespace Mode

/-- Semitones of the seven degrees above the tonic, in ascending order. -/
def intervals : Mode → List Int
  | major => [0, 2, 4, 5, 7, 9, 11]
  | minor => [0, 2, 3, 5, 7, 8, 10]
  | dorian => [0, 2, 3, 5, 7, 9, 10]
  | phrygian => [0, 1, 3, 5, 7, 8, 10]
  | lydian => [0, 2, 4, 6, 7, 9, 11]
  | mixolydian => [0, 2, 4, 5, 7, 9, 10]
  | locrian => [0, 1, 3, 5, 6, 8, 10]
  | harmonicMinor => [0, 2, 3, 5, 7, 8, 11]
  | melodicMinor => [0, 2, 3, 5, 7, 9, 11]

def name : Mode → String
  | major => "major"
  | minor => "minor"
  | dorian => "dorian"
  | phrygian => "phrygian"
  | lydian => "lydian"
  | mixolydian => "mixolydian"
  | locrian => "locrian"
  | harmonicMinor => "harmonic_minor"
  | melodicMinor => "melodic_minor"

/-- Every mode, in the order of their names. -/
def all : List Mode :=
  [dorian, harmonicMinor, locrian, lydian, major, melodicMinor, minor, mixolydian, phrygian]

/-- Second names of modes. -/
def aliases : List (String × Mode) := [("ionian", major), ("aeolian", minor)]

/-- The mode with a name, or with a second name. -/
def ofName? (name : String) : Option Mode :=
  (aliases.lookup name).or (all.find? (·.name == name))

@[simp] theorem ofName?_name (mode : Mode) : ofName? mode.name = some mode := by
  cases mode <;> decide +kernel

theorem intervals_length (mode : Mode) : mode.intervals.length = 7 := by
  cases mode <;> rfl

end Mode

end MusicAlgebra
