import MusicAlgebra.Score.Line
import MusicAlgebra.Theory.Instrument

/-!
# A short piece

A two-voice phrase to try things out with: a melody rises over a held bass and swells, and a rolled
chord slows down at the end.
-/

namespace MusicAlgebra.Demo

/-- A note without accidental, at the usual volume. -/
def natural (letter : Letter) (octave : Int) (length : Rat)
    (inRange : 0 ≤ (Spelling.mk letter .natural).absolute octave ∧
      (Spelling.mk letter .natural).absolute octave ≤ 127 := by decide) : Music :=
  .note { pitch := ⟨⟨letter, .natural⟩, octave, inRange⟩, length := .nearest length }

/-- The rising melody, in eighths. -/
def melody : Music :=
  .line [natural .c 4 (1 / 8), natural .d 4 (1 / 8), natural .e 4 (1 / 8), natural .f 4 (1 / 8),
    natural .g 4 (1 / 8), natural .a 4 (1 / 8), natural .b 4 (1 / 8), natural .c 5 (1 / 8)]

/-- The held bass, in halves. -/
def bass : Music := .sequential (natural .c 3 (1 / 2)) (natural .g 2 (1 / 2))

/-- Melody and bass, swelling by a half. -/
def opening : Music :=
  .modified (.phrase [.crescendo (.nearest (1 / 2))]) (.parallel melody bass)

/-- The last chord, rolled upwards and slowing down by a half. -/
def cadence : Music :=
  .modified (.phrase [.arpeggioUp, .ritardando (.nearest (1 / 2))])
    (.chord [natural .e 4 1, natural .g 4 1, natural .c 5 1, natural .c 3 1])

/-- The whole piece, for the piano and a player that understands every attribute. -/
def piece : Music :=
  .modified (.instrument (.text Instrument.standard.name))
    (.modified (.player (.text "fancy")) (.sequential opening cadence))

end MusicAlgebra.Demo
