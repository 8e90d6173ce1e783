import Mathlib.Algebra.Order.Field.Basic
import Mathlib.Algebra.Order.Ring.Rat
import Mathlib.Tactic.FieldSimp
import MusicAlgebra.Score.Length

/-!
# Stacks of modifiers

Music is a stack of modifiers, the outermost first, over something that is none.  On the way out a
length is divided by the tempos of the stack and multiplied by the factors of its phrases, in
whatever order they are nested; the other modifiers leave it alone.
-/

namespace MusicAlgebra

namespace Modifier

/-- How much faster the passage inside is played on account of a tempo. -/
def haste : Modifier → Scale
  | tempo scale => scale
  | _ => 1

/-- How much longer the passage inside takes on account of a phrase. -/
def broadening : Modifier → Scale
  | phrase attributes => Attribute.totalTimeFactor attributes
  | _ => 1

/-- A length below a stack of modifiers as it is measured from outside. -/
def outwardAll (stack : List Modifier) (length : Amount) : Amount := stack.foldr outward length

def hasteAll (stack : List Modifier) : Scale := (stack.map haste).prod

def broadeningAll (stack : List Modifier) : Scale := (stack.map broadening).prod

variable (modifier : Modifier) (stack : List Modifier) (length : Amount)

@[simp] theorem outwardAll_nil : outwardAll [] length = length := rfl

@[simp] theorem outwardAll_cons :
    outwardAll (modifier :: stack) length = modifier.outward (outwardAll stack length) := rfl

@[simp] theorem hasteAll_nil : hasteAll [] = 1 := rfl

@[simp] theorem hasteAll_cons :
    hasteAll (modifier :: stack) = modifier.haste * hasteAll stack := rfl

@[simp] theorem broadeningAll_nil : broadeningAll [] = 1 := rfl

@[simp] theorem broadeningAll_cons :
    broadeningAll (modifier :: stack) = modifier.broadening * broadeningAll stack := rfl

theorem val_outward :
    (modifier.outward length).val =
      length.val * modifier.broadening.val / modifier.haste.val := by
  cases modifier <;> simp [outward, broadening, haste]

theorem val_outwardAll :
    (outwardAll stack length).val =
      length.val * (broadeningAll stack).val / (hasteAll stack).val := by
  induction stack with
  | nil => simp
  | cons modifier stack ih =>
      rw [outwardAll_cons, val_outward, ih, broadeningAll_cons, hasteAll_cons, Scale.val_mul,
        Scale.val_mul]
      have own := modifier.haste.pos.ne'
      have others := (hasteAll stack).pos.ne'
      field_simp

end Modifier

namespace Music

/-- Music under a stack of modifiers. -/
def under (stack : List Modifier) (m : Music) : Music := stack.foldr modified m

@[simp] theorem under_nil (m : Music) : under [] m = m := rfl

@[simp] theorem under_cons (modifier : Modifier) (stack : List Modifier) (m : Music) :
    under (modifier :: stack) m = modified modifier (under stack m) := rfl

/-- The modifiers at the root. -/
def stack : Music → List Modifier
  | modified modifier inner => modifier :: inner.stack
  | _ => []

/-- What is below the modifiers at the root. -/
def innermost : Music → Music
  | modified _ inner => inner.innermost
  | m => m

theorem under_stack_innermost (m : Music) : under m.stack m.innermost = m := by
  induction m with
  | modified modifier inner ih => rw [stack, innermost, under_cons, ih]
  | _ => rfl

theorem duration_under (stack : List Modifier) (m : Music) :
    (under stack m).duration = Modifier.outwardAll stack m.duration := by
  induction stack with
  | nil => rfl
  | cons modifier stack ih =>
      rw [under_cons, duration_modified, ih, Modifier.outwardAll_cons]

end Music

end MusicAlgebra
