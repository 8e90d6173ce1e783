/-!
# Spellings of pitch classes

A pitch class is spelled by one of seven letters and an accidental.  Spellings that cross the
octave keep the octave of their letter, so `B#` lies twelve semitones above `C` and `Cb` one below
it, the way the notes stand on a stave.
-/

namespace MusicAlgebra

inductive Letter where
  | c | d | e | f | g | a | b
  deriving DecidableEq, Repr

inductive Accidental where
  | doubleFlat | flat | natural | sharp | doubleSharp
  deriving DecidableEq, Repr

/-- A letter with an accidental. -/
structure Spelling where
  letter : Letter
  accidental : Accidental
  deriving DecidableEq, Repr

namespace Letter

/-- Semitones above C of the same octave. -/
def offset : Letter → Int
  | c => 0 | d => 2 | e => 4 | f => 5 | g => 7 | a => 9 | b => 11

def symbol : Letter → Char
  | c => 'C' | d => 'D' | e => 'E' | f => 'F' | g => 'G' | a => 'A' | b => 'B'

def all : List Letter := [c, d, e, f, g, a, b]

/-- The letter that a capital stands for. -/
def ofSymbol? (symbol : Char) : Option Letter :=
  all.find? (·.symbol == symbol)

@[simp] theorem ofSymbol?_symbol (letter : Letter) : ofSymbol? letter.symbol = some letter := by
  cases letter <;> rfl

end Letter

namespace Accidental

/-- By how many semitones an accidental raises its letter. -/
def shift : Accidental → Int
  | doubleFlat => -2 | flat => -1 | natural => 0 | sharp => 1 | doubleSharp => 2

def symbols : Accidental → List Char
  | doubleFlat => ['b', 'b'] | flat => ['b'] | natural => [] | sharp => ['#']
  | doubleSharp => ['#', '#']

def all : List Accidental := [doubleFlat, flat, natural, sharp, doubleSharp]

/-- The accidental that consists of exactly these characters. -/
def ofSymbols? (symbols : List Char) : Option Accidental :=
  all.find? (·.symbols == symbols)

@[simp] theorem ofSymbols?_symbols (accidental : Accidental) :
    ofSymbols? accidental.symbols = some accidental := by
  cases accidental <;> decide

end Accidental

namespace Spelling

/-- Semitones above C of the octave that the letter belongs to. -/
def offset (s : Spelling) : Int := s.letter.offset + s.accidental.shift

def name (s : Spelling) : String := String.ofList (s.letter.symbol :: s.accidental.symbols)

/-- The spelling written as a capital letter and an accidental. -/
def ofName? (name : String) : Option Spelling :=
  match name.toList with
  | [] => none
  | symbol :: symbols => do
    let letter ← Letter.ofSymbol? symbol
    let accidental ← Accidental.ofSymbols? symbols
    return ⟨letter, accidental⟩

@[simp] theorem ofName?_name (s : Spelling) : ofName? s.name = some s := by
  simp [ofName?, name]

def all : List Spelling :=
  Letter.all.flatMap fun letter => Accidental.all.map fun accidental => ⟨letter, accidental⟩

/-- The spelling with sharps of each of the twelve pitch classes, from C upwards. -/
def sharpSpellings : List Spelling :=
  [⟨.c, .natural⟩, ⟨.c, .sharp⟩, ⟨.d, .natural⟩, ⟨.d, .sharp⟩, ⟨.e, .natural⟩, ⟨.f, .natural⟩,
    ⟨.f, .sharp⟩, ⟨.g, .natural⟩, ⟨.g, .sharp⟩, ⟨.a, .natural⟩, ⟨.a, .sharp⟩, ⟨.b, .natural⟩]

theorem sharpSpellings_length : sharpSpellings.length = 12 := rfl

/-- The spelling with sharps of a pitch class given as semitones above C. -/
def ofPitchClass (semitones : Fin 12) : Spelling :=
  sharpSpellings.get (semitones.cast sharpSpellings_length.symm)

theorem offset_ofPitchClass (semitones : Fin 12) :
    (ofPitchClass semitones).offset = (semitones.val : Int) := by
  revert semitones; decide

end Spelling

end MusicAlgebra
