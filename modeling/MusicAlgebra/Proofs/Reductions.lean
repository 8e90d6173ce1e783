import MusicAlgebra.Proofs.PerformedDuration
import MusicAlgebra.Proofs.ScoreContents
import MusicAlgebra.Score.Operand
import MusicAlgebra.Score.Ornament

/-!
# Reductions of scores

What is read off a score node by node is a reduction of it, and the handlers leave no choice.  So
reading a score in which notes have been replaced is reading the score itself, only that each note
is read as what it has been replaced by.  The length of a score is a reading of this kind, although
it is computed chain by chain, and therefore looks at no more of a replacement than its length.
-/

namespace MusicAlgebra.Music

open Outcome

variable {α : Type} {on : Handlers α} {read : Music → α}

/-- Something that is read off a score as the handlers say, each node off its operands. -/
structure ReadBy (on : Handlers α) (read : Music → α) : Prop where
  note : ∀ n, read (note n) = on.note n
  rest : ∀ length, read (rest length) = on.rest length
  sequential : ∀ left right,
    read (sequential left right) = on.sequential (read left) (read right)
  parallel : ∀ left right, read (parallel left right) = on.parallel (read left) (read right)
  modified : ∀ modifier inner,
    read (modified modifier inner) = on.modified modifier (read inner)

theorem ReadBy.eq_fold (reading : ReadBy on read) (m : Music) : read m = m.fold on := by
  induction m with
  | note n => exact reading.note n
  | rest length => exact reading.rest length
  | sequential left right leftIH rightIH => rw [reading.sequential, leftIH, rightIH, fold]
  | parallel left right leftIH rightIH => rw [reading.parallel, leftIH, rightIH, fold]
  | modified modifier inner ih => rw [reading.modified, ih, fold]

/-- Only the notes that stand in the score are looked at. -/
theorem fold_congr {m : Music} {other : Note → α} (same : ∀ n ∈ m.notes, on.note n = other n) :
    m.fold on = m.fold { on with note := other } := by
  induction m with
  | note n => exact same n (List.mem_singleton_self n)
  | rest length => rfl
  | sequential left right leftIH rightIH =>
      rw [notes_sequential, List.forall_mem_append] at same
      rw [fold, fold, leftIH same.1, rightIH same.2]
  | parallel left right leftIH rightIH =>
      rw [notes_parallel, List.forall_mem_append] at same
      rw [fold, fold, leftIH same.1, rightIH same.2]
  | modified modifier inner ih => rw [fold, fold, ih same]

/-! ## Replaced notes -/

/-- Replacing notes and reducing the result is one reduction. -/
theorem fold_map (on : Handlers α) (replace : Note → Music) (m : Music) :
    (m.map replace).fold on = m.fold { on with note := fun n => (replace n).fold on } := by
  have reading : ReadBy { on with note := fun n => (replace n).fold on }
      fun m => (m.map replace).fold on :=
    ⟨fun _ => rfl, fun _ => rfl, fun _ _ => rfl, fun _ _ => rfl, fun _ _ => rfl⟩
  exact reading.eq_fold m

theorem map_note (m : Music) : m.map note = m := by
  have reading : ReadBy (rebuilding note) id :=
    ⟨fun _ => rfl, fun _ => rfl, fun _ _ => rfl, fun _ _ => rfl, fun _ _ => rfl⟩
  exact (reading.eq_fold m).symm

/-- A replacement that is music for every note of the score is granted. -/
theorem mapNotes_of_music {m : Music} {given : Note → Except Rejection Operand}
    {replace : Note → Music} (granted : ∀ n ∈ m.notes, given n = .ok (.music (replace n))) :
    Operand.mapNotes given m = .ok (.music (m.map replace)) := by
  have reading : ReadBy
      { note := fun n => .ok (.music (replace n))
        rest := fun length => .ok (.music (.rest length))
        sequential := Operand.lift Operand.sequential
        parallel := Operand.lift Operand.parallel
        modified := fun modifier inner => inner >>= Operand.modified modifier }
      fun m => .ok (.music (m.map replace)) :=
    ⟨fun _ => rfl, fun _ => rfl, fun _ _ => rfl, fun _ _ => rfl, fun _ _ => rfl⟩
  exact (fold_congr granted).trans (reading.eq_fold m).symm

/-! ## Length -/

/-- How the length of a score is read off its nodes. -/
def measuring : Handlers Rat where
  note n := n.length.val
  rest length := length.val
  sequential first second := first + second
  parallel first second := max first second
  modified
    | .tempo scale, inner => inner / scale.val
    | .phrase attributes, inner => inner * (Attribute.totalTimeFactor attributes).val
    | _, inner => inner

theorem measuring_duration : ReadBy measuring fun m => m.duration.val where
  note n := by rw [duration_note]; rfl
  rest length := by rw [duration_rest]; rfl
  sequential left right := by rw [duration_sequential]; rfl
  parallel left right := by rw [duration_parallel, Amount.val_max]; exact (max_def _ _).symm
  modified modifier inner := by rw [duration_modified]; cases modifier <;> rfl

/-- The length of a score, found node by node from its leaves. -/
theorem fold_measuring (m : Music) : m.fold measuring = m.duration.val :=
  (measuring_duration.eq_fold m).symm

theorem duration_map {m : Music} {replace : Note → Music}
    (kept : ∀ n ∈ m.notes, (replace n).duration = n.length) :
    (m.map replace).duration = m.duration := by
  have measured : ∀ n ∈ m.notes, (replace n).fold measuring = n.length.val := by
    intro n member
    rw [fold_measuring, kept n member]
  ext
  calc (m.map replace).duration.val
      = (m.map replace).fold measuring := (fold_measuring _).symm
    _ = m.fold { measuring with note := fun n => (replace n).fold measuring } := fold_map ..
    _ = m.fold measuring := fold_congr measured
    _ = m.duration.val := fold_measuring m

/-- Replacing notes and reducing fuse.  A score whose notes are replaced by music, which is always
granted, is reduced by any handlers as the score itself is reduced once its notes are handled as
what they are replaced by.  Notes that are replaced by themselves leave the score as it is, and
notes that are replaced by music of their own length leave it as long as it is, whatever becomes of
its chains. -/
theorem map_fuses (m : Music) (replace : Note → Music) :
    (∀ given : Note → Except Rejection Operand,
      (∀ n ∈ m.notes, given n = .ok (.music (replace n))) →
        Operand.mapNotes given m = .ok (.music (m.map replace))) ∧
      (∀ (α : Type) (on : Handlers α),
        (m.map replace).fold on = m.fold { on with note := fun n => (replace n).fold on }) ∧
      m.map note = m ∧
      ((∀ n ∈ m.notes, (replace n).duration = n.length) →
        (m.map replace).duration = m.duration) :=
  ⟨fun _ => mapNotes_of_music, fun _ on => fold_map on replace m, map_note m, duration_map⟩

/-- Three operands in sequence, one of them a third that is played faster. -/
def cadence : Music :=
  sequential (quarter .c)
    (sequential
      (modified (.tempo ⟨5 / 2, by decide +kernel⟩) (parallel (quarter .e) (quarter .g)))
      (rest (.nearest (1 / 4))))

/-- A note with a grace note a semitone above that takes half of its length. -/
def graced [Limits] (n : Note) : Except Rejection Music := n.withGrace 1 (.text "1/2")

open Usual

/-- The grace notes double the notes and add an operand to the chain, and the cadence stays as long
as it was. -/
theorem cadence_graced :
    let replace := fun n => (graced n).toOption.getD (note n)
    let counting : Handlers Nat :=
      { note := fun _ => 1
        rest := fun _ => 0
        sequential := (· + ·)
        parallel := (· + ·)
        modified := fun _ inner => inner }
    (∀ n ∈ cadence.notes, Operand.music <$> graced n = .ok (.music (replace n))) ∧
      (∀ n ∈ cadence.notes, (replace n).duration = n.length) ∧
      Operand.mapNotes (fun n => Operand.music <$> graced n) cadence =
        .ok (.music (cadence.map replace)) ∧
      cadence.fold counting = 3 ∧ (cadence.map replace).fold counting = 6 ∧
      (flatten .sequential cadence).length = 3 ∧
      (flatten .sequential (cadence.map replace)).length = 4 ∧
      cadence.map note = cadence ∧ (cadence.map replace).duration = cadence.duration := by
  intro replace counting
  have possible : ∀ n ∈ cadence.notes, (graced n).isOk = true := by decide +kernel
  have given : ∀ n ∈ cadence.notes, Operand.music <$> graced n = .ok (.music (replace n)) := by
    intro n member
    obtain ⟨m, found⟩ := exists_of_isOk (possible n member)
    simp only [replace, found]
    rfl
  have kept : ∀ n ∈ cadence.notes, (replace n).duration = n.length := by decide +kernel
  obtain ⟨granted, fused, same, lasting⟩ := map_fuses cadence replace
  refine ⟨given, kept, granted _ given, by decide +kernel, ?_, by decide +kernel,
    by decide +kernel, same, lasting kept⟩
  rw [fused Nat counting]
  decide +kernel

end MusicAlgebra.Music
