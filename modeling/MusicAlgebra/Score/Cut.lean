import MusicAlgebra.Score.Length

/-!
# Cutting music

`Music.take` keeps the beginning of a piece and `Music.drop` the rest.  Notes that cross the cut are
shortened, and a cut is carried inward through every modifier, so that it falls at the same moment
whatever the tempo inside.
-/

namespace MusicAlgebra.Music

/-- The first `length` whole notes of the music. -/
def take (m : Music) (length : Amount) : Music :=
  if length = 0 then rest 0
  else
    match m with
    | note n => note { n with length := min n.length length }
    | rest own => rest (min own length)
    | sequential left right =>
      let beginning := left.take length
      sequential beginning (right.take (length - beginning.duration))
    | parallel left right => parallel (left.take length) (right.take length)
    | modified modifier inner => modified modifier (inner.take (modifier.inward length))

/-- The music without its first `length` whole notes. -/
def drop (m : Music) (length : Amount) : Music :=
  if length = 0 then m
  else
    match m with
    | note n => note { n with length := n.length - length }
    | rest own => rest (own - length)
    | sequential left right =>
      sequential (left.drop length) (right.drop (length - left.duration))
    | parallel left right => parallel (left.drop length) (right.drop length)
    | modified modifier inner => modified modifier (inner.drop (modifier.inward length))

/-- Both parts together, each cut to the length of the shorter one. -/
def parallelCut (left right : Music) : Music :=
  parallel (left.take right.duration) (right.take left.duration)

@[simp] theorem take_zero (m : Music) : m.take 0 = rest 0 := by
  cases m <;> simp [take]

@[simp] theorem drop_zero (m : Music) : m.drop 0 = m := by
  cases m <;> simp [drop]

end MusicAlgebra.Music
