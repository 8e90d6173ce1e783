import MusicAlgebra.Score.Modifier

/-!
# The music algebra

A piece of music is a tree: notes and rests, composed in sequence or in parallel, and passages under
a modifier.  This module holds the tree and its bottom-up reduction, of which replacing every note
by music is an instance.
-/

namespace MusicAlgebra

/-- A sounding note. -/
structure Note where
  pitch : Pitch
  length : Amount
  volume : Volume := .ofNote
  deriving DecidableEq

inductive Music where
  | note (n : Note)
  | rest (length : Amount)
  /-- `left`, and `right` once it has ended. -/
  | sequential (left right : Music)
  /-- Both from the same moment. -/
  | parallel (left right : Music)
  /-- `inner` under a modifier. -/
  | modified (modifier : Modifier) (inner : Music)

namespace Note

/-- The volume that a datum stands for. -/
def volumeOf : Datum → Except Rejection Volume
  | .int n =>
    ((Volume.ofInt? n).map Except.ok).getD (.error (.volumeOutOfRange n))
  | given => .error (.volumeNotInteger given)

/-- A note on a pitch, with an unchecked length and an unchecked volume. -/
def onPitch [Limits] (pitch : Pitch) (length volume : Datum) : Except Rejection Note := do
  let length ← length.toLength
  let volume ← volumeOf volume
  return ⟨pitch, length, volume⟩

/-- A note with everything unchecked; the pitch is looked at first, the volume last. -/
def build [Limits] (pitch length volume : Datum) : Except Rejection Note := do
  let pitch ← Pitch.ofDatum pitch
  onPitch pitch length volume

end Note

namespace Music

/-- Silence of no length, the unit of sequential composition. -/
instance : Inhabited Music := ⟨rest 0⟩

/-- What a bottom-up reduction does with each kind of node. -/
structure Handlers (α : Type) where
  note : Note → α
  rest : Amount → α
  sequential : α → α → α
  parallel : α → α → α
  modified : Modifier → α → α

/-- Reduce a tree bottom-up. -/
def fold {α : Type} (on : Handlers α) : Music → α
  | note n => on.note n
  | rest length => on.rest length
  | sequential left right => on.sequential (left.fold on) (right.fold on)
  | parallel left right => on.parallel (left.fold on) (right.fold on)
  | modified modifier inner => on.modified modifier (inner.fold on)

/-- The handlers that rebuild a tree, with `replace` at its notes. -/
def rebuilding (replace : Note → Music) : Handlers Music :=
  { note := replace, rest, sequential, parallel, modified }

/-- Replace every note by music, keeping rests, modifiers and the shape of the tree. -/
def map (replace : Note → Music) (m : Music) : Music := m.fold (rebuilding replace)

/-- Whether the music is a note or a rest of no length. -/
def isZero : Music → Bool
  | note n => n.length == 0
  | rest length => length == 0
  | _ => false

/-- Whether two trees are equal node by node. -/
def agrees : Music → Music → Bool
  | note a, note b => a == b
  | rest a, rest b => a == b
  | sequential a b, sequential c d => a.agrees c && b.agrees d
  | parallel a b, parallel c d => a.agrees c && b.agrees d
  | modified m a, modified n b => m.agrees n && a.agrees b
  | _, _ => false

/-- How many nodes a tree has. -/
def nodes : Music → Nat
  | note _ => 1
  | rest _ => 1
  | sequential left right => left.nodes + right.nodes + 1
  | parallel left right => left.nodes + right.nodes + 1
  | modified _ inner => inner.nodes + 1

theorem nodes_pos (m : Music) : 0 < m.nodes := by
  cases m <;> simp [nodes]

end Music

end MusicAlgebra
