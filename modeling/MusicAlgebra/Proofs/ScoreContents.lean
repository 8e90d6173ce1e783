import MusicAlgebra.Score.Music

/-!
# The contents of a score

What stands in a score, from left to right and from outside to inside: its notes, its modifiers and
the attributes of its phrases.  Laws that hold for some scores only ask something of each of these,
wherever in the tree it stands.
-/

namespace MusicAlgebra

/-- The attributes of a phrase; no other modifier has any. -/
def Modifier.attributes : Modifier → List Attribute
  | phrase attributes => attributes
  | _ => []

namespace Music

def notes (m : Music) : List Note :=
  m.fold {
    note := fun n => [n]
    rest := fun _ => []
    sequential := fun left right => left ++ right
    parallel := fun left right => left ++ right
    modified := fun _ inner => inner }

def modifiers (m : Music) : List Modifier :=
  m.fold {
    note := fun _ => []
    rest := fun _ => []
    sequential := fun left right => left ++ right
    parallel := fun left right => left ++ right
    modified := fun modifier inner => modifier :: inner }

/-- The notes and rests, each with the modifiers around it from outside to inside. -/
def leaves (m : Music) : List (List Modifier × Music) :=
  m.fold {
    note := fun n => [([], note n)]
    rest := fun length => [([], rest length)]
    sequential := fun left right => left ++ right
    parallel := fun left right => left ++ right
    modified := fun modifier inner => inner.map fun leaf => (modifier :: leaf.1, leaf.2) }

/-- The attributes of all phrases. -/
def attributes (m : Music) : List Attribute := m.modifiers.flatMap Modifier.attributes

variable (n : Note) (length : Amount) (left right inner : Music) (modifier : Modifier)

@[simp] theorem notes_note : (note n).notes = [n] := rfl

@[simp] theorem notes_rest : (rest length).notes = [] := rfl

@[simp] theorem notes_sequential : (sequential left right).notes = left.notes ++ right.notes := rfl

@[simp] theorem notes_parallel : (parallel left right).notes = left.notes ++ right.notes := rfl

@[simp] theorem notes_modified : (modified modifier inner).notes = inner.notes := rfl

@[simp] theorem modifiers_note : (note n).modifiers = [] := rfl

@[simp] theorem modifiers_rest : (rest length).modifiers = [] := rfl

@[simp] theorem modifiers_sequential :
    (sequential left right).modifiers = left.modifiers ++ right.modifiers := rfl

@[simp] theorem modifiers_parallel :
    (parallel left right).modifiers = left.modifiers ++ right.modifiers := rfl

@[simp] theorem modifiers_modified :
    (modified modifier inner).modifiers = modifier :: inner.modifiers := rfl

@[simp] theorem leaves_note : (note n).leaves = [([], note n)] := rfl

@[simp] theorem leaves_rest : (rest length).leaves = [([], rest length)] := rfl

@[simp] theorem leaves_sequential :
    (sequential left right).leaves = left.leaves ++ right.leaves := rfl

@[simp] theorem leaves_parallel : (parallel left right).leaves = left.leaves ++ right.leaves := rfl

@[simp] theorem leaves_modified :
    (modified modifier inner).leaves =
      inner.leaves.map fun leaf => (modifier :: leaf.1, leaf.2) := rfl

@[simp] theorem attributes_sequential :
    (sequential left right).attributes = left.attributes ++ right.attributes :=
  List.flatMap_append

@[simp] theorem attributes_parallel :
    (parallel left right).attributes = left.attributes ++ right.attributes :=
  List.flatMap_append

@[simp] theorem attributes_modified :
    (modified modifier inner).attributes = modifier.attributes ++ inner.attributes :=
  List.flatMap_cons

end Music

end MusicAlgebra
