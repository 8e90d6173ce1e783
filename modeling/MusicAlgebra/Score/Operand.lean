import MusicAlgebra.Score.Line

/-!
# Operands that need not be music

Composition accepts whatever a user hands in and refuses what is not music.  An `Operand` is such a
value; the checked compositions below look at the left operand before the right one.
-/

namespace MusicAlgebra

/-- Music, or a value that was given in its place. -/
inductive Operand where
  | music (m : Music)
  | other (given : Datum)

namespace Operand

def toMusic : Operand → Except Rejection Music
  | music m => .ok m
  | other given => .error (.notMusic given)

def sequential (left right : Operand) : Except Rejection Operand := do
  let left ← left.toMusic
  let right ← right.toMusic
  return music (.sequential left right)

def parallel (left right : Operand) : Except Rejection Operand := do
  let left ← left.toMusic
  let right ← right.toMusic
  return music (.parallel left right)

def modified (modifier : Modifier) (inner : Operand) : Except Rejection Operand := do
  let inner ← inner.toMusic
  return music (.modified modifier inner)

/-- A composition of operands that may themselves have failed. -/
def lift (combine : Operand → Operand → Except Rejection Operand)
    (left right : Except Rejection Operand) : Except Rejection Operand := do
  let left ← left
  let right ← right
  combine left right

/-- The operands combined in a balanced way.  A single operand is not looked at. -/
def combineAll (combine : Operand → Operand → Except Rejection Operand) (parts : List Operand) :
    Except Rejection Operand :=
  balanced (lift combine) (.ok (music (.rest 0))) (parts.map .ok)

def line (parts : List Operand) : Except Rejection Operand := combineAll sequential parts

def chord (parts : List Operand) : Except Rejection Operand := combineAll parallel parts

/-- Whether two operands are equal; music never equals anything else. -/
def agrees : Operand → Operand → Bool
  | music a, music b => a.agrees b
  | other a, other b => a == b
  | _, _ => false

/-- Replace every note of the music by an operand, which must be music wherever it is composed. -/
def mapNotes (replace : Note → Except Rejection Operand) (m : Music) : Except Rejection Operand :=
  m.fold {
    note := replace
    rest := fun length => .ok (music (.rest length))
    sequential := lift sequential
    parallel := lift parallel
    modified := fun modifier inner => inner >>= modified modifier }

end Operand

end MusicAlgebra
