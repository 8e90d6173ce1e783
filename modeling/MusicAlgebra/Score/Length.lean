import MusicAlgebra.Score.Chain

/-!
# Length of music

The length of a chain is the sum of its operands in sequence and the largest of them in parallel.
A modifier carries the length of its passage outward: a tempo divides it and the tempo attributes of
a phrase stretch it.  Players have no say in it.
-/

namespace MusicAlgebra

namespace Music

/-- The structural length in whole notes, relative to the tempo around the music. -/
def duration (m : Music) : Amount :=
  match _ : m with
  | note n => n.length
  | rest length => length
  | sequential .. =>
    .sum ((flatten .sequential m).attach.map fun ⟨part, _⟩ => part.duration)
  | parallel .. =>
    .largest ((flatten .parallel m).attach.map fun ⟨part, _⟩ => part.duration)
  | modified modifier inner => modifier.outward inner.duration
termination_by m.nodes
decreasing_by
  · subst m
    exact nodes_lt_of_mem_flatten rfl ‹_›
  · subst m
    exact nodes_lt_of_mem_flatten rfl ‹_›
  · simp [nodes]

@[simp] theorem duration_note (n : Note) : (note n).duration = n.length := by
  rw [duration]

@[simp] theorem duration_rest (length : Amount) : (rest length).duration = length := by
  rw [duration]

@[simp] theorem duration_modified (modifier : Modifier) (inner : Music) :
    (modified modifier inner).duration = modifier.outward inner.duration := by
  rw [duration]

/-- Music in sequence lasts as long as all operands of its chain together. -/
theorem duration_sequential_chain (left right : Music) :
    (sequential left right).duration =
      .sum ((flatten .sequential (sequential left right)).map duration) := by
  rw [duration, List.attach_map_val]

/-- Music in parallel lasts as long as the longest operand of its chain. -/
theorem duration_parallel_chain (left right : Music) :
    (parallel left right).duration =
      .largest ((flatten .parallel (parallel left right)).map duration) := by
  rw [duration, List.attach_map_val]

/-- The operands of a sequential chain add up to the length of the whole. -/
theorem sum_duration_flatten (m : Music) :
    .sum ((flatten .sequential m).map duration) = m.duration := by
  cases m with
  | sequential left right => exact (duration_sequential_chain left right).symm
  | _ => rw [flatten_of_none rfl]; simp

/-- The longest operand of a parallel chain has the length of the whole. -/
theorem largest_duration_flatten (m : Music) :
    .largest ((flatten .parallel m).map duration) = m.duration := by
  cases m with
  | parallel left right => exact (duration_parallel_chain left right).symm
  | _ => rw [flatten_of_none rfl]; simp

@[simp] theorem duration_sequential (left right : Music) :
    (sequential left right).duration = left.duration + right.duration := by
  rw [duration_sequential_chain, flatten_sequential, List.map_append, Amount.sum_append,
    sum_duration_flatten, sum_duration_flatten]

@[simp] theorem duration_parallel (left right : Music) :
    (parallel left right).duration = max left.duration right.duration := by
  rw [duration_parallel_chain, flatten_parallel, List.map_append, Amount.largest_append,
    largest_duration_flatten, largest_duration_flatten]

end Music

end MusicAlgebra
