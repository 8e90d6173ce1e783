/-!
# Loudness

A volume is the strength of a MIDI attack, from 0 to 127.  Nine standard markings stand for volumes
of their own.
-/

namespace MusicAlgebra

/-- A MIDI volume. -/
abbrev Volume := Fin 128

namespace Volume

/-- The volume of a note that is given none. -/
def ofNote : Volume := ⟨100, by decide⟩

/-- The volume of a context that is given none: notes sound at their own volume. -/
def ofContext : Volume := ⟨127, by decide⟩

/-- The volume that an integer of the MIDI range stands for. -/
def ofInt? (n : Int) : Option Volume :=
  if inRange : 0 ≤ n ∧ n ≤ 127 then some ⟨n.toNat, by omega⟩ else none

/-- The volume nearest to an integer. -/
def clamp (n : Int) : Int := max 0 (min 127 n)

theorem clamp_nonneg (n : Int) : 0 ≤ clamp n := by unfold clamp; omega

theorem clamp_le (n : Int) : clamp n ≤ 127 := by unfold clamp; omega

end Volume

/-- The standard dynamic markings. -/
inductive StandardLoudness where
  | pianoPianissimo | pianissimo | piano | mezzoPiano | sforzato | mezzoForte | forte | fortissimo
  | forteFortissimo
  deriving DecidableEq, Repr

namespace StandardLoudness

def volume : StandardLoudness → Volume
  | pianoPianissimo => ⟨40, by decide⟩
  | pianissimo => ⟨50, by decide⟩
  | piano => ⟨60, by decide⟩
  | mezzoPiano => ⟨70, by decide⟩
  | sforzato => ⟨80, by decide⟩
  | mezzoForte => ⟨90, by decide⟩
  | forte => ⟨100, by decide⟩
  | fortissimo => ⟨110, by decide⟩
  | forteFortissimo => ⟨120, by decide⟩

def name : StandardLoudness → String
  | pianoPianissimo => "PIANO_PIANISSIMO"
  | pianissimo => "PIANISSIMO"
  | piano => "PIANO"
  | mezzoPiano => "MEZZO_PIANO"
  | sforzato => "SFORZATO"
  | mezzoForte => "MEZZO_FORTE"
  | forte => "FORTE"
  | fortissimo => "FORTISSIMO"
  | forteFortissimo => "FORTE_FORTISSIMO"

def all : List StandardLoudness :=
  [pianoPianissimo, pianissimo, piano, mezzoPiano, sforzato, mezzoForte, forte, fortissimo,
    forteFortissimo]

def ofName? (name : String) : Option StandardLoudness := all.find? (·.name == name)

end StandardLoudness

end MusicAlgebra
