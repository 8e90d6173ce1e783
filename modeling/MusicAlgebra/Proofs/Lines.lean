import Mathlib.Data.Nat.Log
import MusicAlgebra.Proofs.Regrouping

/-!
# Lines and their operands

A line can be read back: its sequential operands are those of its parts, one part after the other,
whatever tree the parts have been put together as.  The other way round, music is heard as the line
of its sequential operands, although that is another tree without the silence of no length that the
reading leaves out.  However many parts a line has, each of them is found below few sequences.
-/

namespace MusicAlgebra.Music

open Outcome

variable {m part : Music} {parts : List Music}

/-! ## Reading a line back -/

theorem isUnit_iff : m.isUnit = true ↔ m = rest 0 := by
  cases m with
  | rest length =>
      rw [isUnit, beq_iff_eq]
      exact ⟨congrArg rest, fun same => Music.rest.inj same⟩
  | _ => simp [isUnit]

theorem toLine_sequential (left right : Music) :
    (sequential left right).toLine = left.toLine ++ right.toLine := by
  rw [toLine, flatten_sequential, List.filter_append, toLine, toLine]

theorem toLine_line (parts : List Music) : (line parts).toLine = parts.flatMap toLine := by
  cases parts with
  | nil =>
      rw [line, balanced, toLine, flatten_of_none rfl]
      rfl
  | cons first parts =>
      rw [line]
      apply balanced_induction (motive := fun parts tree => tree.toLine = parts.flatMap toLine)
      · intro part
        rw [List.flatMap_singleton]
      · intro parts others left right _ _ _ former latter
        rw [toLine_sequential, former, latter, List.flatMap_append]
      · exact List.cons_ne_nil first parts

/-- Music that is neither a sequence nor silence of no length is a line of its own. -/
theorem toLine_eq_singleton (alone : m.operands? .sequential = none) (audible : m.isUnit = false) :
    m.toLine = [m] := by
  rw [toLine, flatten_of_none alone, List.filter_singleton, audible]
  rfl

theorem ne_of_mem_toLine (member : part ∈ m.toLine) :
    (∀ left right, part ≠ sequential left right) ∧ part ≠ rest 0 := by
  obtain ⟨operand, audible⟩ := List.mem_filter.1 member
  constructor
  · rintro left right rfl
    cases operands?_of_mem_flatten operand
  · intro unit
    rw [isUnit_iff.2 unit] at audible
    cases audible

/-! ## The length of a line -/

theorem line_pair {first second : Music} : line [first, second] = sequential first second := by
  simp [line, balanced]

theorem duration_line (parts : List Music) :
    (line parts).duration = .sum (parts.map duration) := by
  cases parts with
  | nil =>
      rw [line, balanced, duration_rest]
      rfl
  | cons first parts =>
      rw [line]
      apply balanced_induction (motive := fun (parts : List Music) (tree : Music) =>
        tree.duration = .sum (parts.map duration))
      · intro part
        simp
      · intro parts others left right _ _ _ former latter
        rw [duration_sequential, former, latter, List.map_append, Amount.sum_append]
      · exact List.cons_ne_nil first parts

/-! ## The depth of a line -/

/-- A part of a tree, and how many nodes of the tree it hangs below. -/
structure Place where
  part : Music
  depth : Nat

/-- The same part in a tree that is itself an operand. -/
def Place.deeper (place : Place) : Place := { place with depth := place.depth + 1 }

/-- Parts that are put together as sequences of sequences, from left to right. -/
inductive Hangs : List Place → Music → Prop where
  | part (m : Music) : Hangs [⟨m, 0⟩] m
  | sequential {places others : List Place} {left right : Music} :
      Hangs places left → Hangs others right →
        Hangs ((places ++ others).map Place.deeper) (sequential left right)

/-- The parts, from left to right, are put together as sequences, and none of them hangs below more
than `depth` of these. -/
def PartsWithin (depth : Nat) (parts : List Music) (m : Music) : Prop :=
  ∃ places, Hangs places m ∧ places.map Place.part = parts ∧ ∀ place ∈ places, place.depth ≤ depth

theorem partsWithin_singleton (m : Music) (depth : Nat) : PartsWithin depth [m] m :=
  ⟨[⟨m, 0⟩], .part m, rfl, by simp⟩

theorem PartsWithin.sequential {first second depth : Nat} {parts others : List Music}
    {left right : Music} (within : PartsWithin first parts left)
    (within' : PartsWithin second others right) (firstStep : first + 1 ≤ depth)
    (secondStep : second + 1 ≤ depth) :
    PartsWithin depth (parts ++ others) (sequential left right) := by
  obtain ⟨places, hang, rfl, shallow⟩ := within
  obtain ⟨places', hang', rfl, shallow'⟩ := within'
  refine ⟨(places ++ places').map Place.deeper, .sequential hang hang', ?_, ?_⟩
  · rw [← List.map_append, List.map_map]
    rfl
  · intro place member
    obtain ⟨inner, found, rfl⟩ := List.mem_map.1 member
    rcases List.mem_append.1 found with left | right
    · exact (Nat.succ_le_succ (shallow inner left)).trans firstStep
    · exact (Nat.succ_le_succ (shallow' inner right)).trans secondStep

theorem clog_half {half whole : Nat} (several : 2 ≤ whole) (within : half ≤ (whole + 1) / 2) :
    Nat.clog 2 half + 1 ≤ Nat.clog 2 whole := by
  rw [Nat.clog_of_two_le Nat.one_lt_two several]
  exact Nat.succ_le_succ (Nat.clog_mono_right 2 within)

/-- Neither half of a line has more than half of the parts, rounded up, so every halving is a step
of the logarithm. -/
theorem partsWithin_line (some : parts ≠ []) :
    PartsWithin (Nat.clog 2 parts.length) parts (line parts) := by
  rw [line]
  apply balanced_induction (motive := fun parts tree =>
    PartsWithin (Nat.clog 2 parts.length) parts tree)
  · intro part
    exact partsWithin_singleton part _
  · intro parts others left right some order close within within'
    have several := List.length_pos_of_ne_nil some
    rw [List.length_append]
    apply within.sequential within'
    · exact clog_half (by omega) (by omega)
    · exact clog_half (by omega) (by omega)
  · exact some

/-! ## Music as the line of its operands -/

theorem flatten_regroups (m : Music) :
    Rearranged Regroups m (nested .sequential (flatten .sequential m)) := by
  induction m with
  | sequential left right leftIH rightIH =>
      rw [flatten_sequential]
      exact (Rearranged.compose .sequential leftIH rightIH).trans
        (nested_append .sequential (flatten_ne_nil .sequential left)
          (flatten_ne_nil .sequential right))
  | _ =>
      rw [flatten_of_none rfl]
      exact .refl _

theorem nested_cons (kind : Composition) (first : Music) (parts : List Music) :
    Rearranged Pads (nested kind (first :: parts)) (compose kind first (nested kind parts)) := by
  cases parts with
  | nil => exact .here (.after kind first)
  | cons second parts => exact .refl _

/-- Parts that are silence of no length are not missed. -/
theorem nested_units (kind : Composition) (parts : List Music) :
    Rearranged Pads (nested kind parts) (nested kind (parts.filter (!·.isUnit))) := by
  induction parts with
  | nil => exact .refl _
  | cons first parts ih =>
      apply (nested_cons kind first parts).trans
      by_cases unit : first.isUnit
      · have silent : compose kind first (nested kind parts) =
            compose kind (rest 0) (nested kind parts) := by
          rw [isUnit_iff.1 unit]
        rw [List.filter_cons_of_neg (by simpa using unit), silent]
        exact (Rearranged.here (.before kind _)).symm.trans ih
      · rw [List.filter_cons_of_pos (by simpa using unit)]
        exact (Rearranged.compose kind (.refl first) ih).trans (nested_cons kind first _).symm

/-- The line of its operands is the music itself, up to grouping and silence of no length. -/
theorem line_toLine (m : Music) :
    Rearranged (fun m n => Regroups m n ∨ Pads m n) (line m.toLine) m := by
  have grouped : Rearranged Regroups (line m.toLine) (nested .sequential m.toLine) :=
    balanced_regroups .sequential m.toLine
  have padded := nested_units .sequential (flatten .sequential m)
  have operands := flatten_regroups m
  exact (grouped.mono fun _ _ => Or.inl).trans
    ((padded.symm.mono fun _ _ => Or.inr).trans (operands.symm.mono fun _ _ => Or.inl))

/-- Putting together a line and reading it back are inverse to each other up to grouping.  What is
read of a line is what is read of its parts in turn, and consists of neither sequences nor silence of
no length; every part of a line of `n` hangs below at most `⌈log₂ n⌉` sequences.  The other way round
the line that is read of any music is performed as the music itself under every positive tempo,
whoever plays it. -/
theorem line_toLine_inverse [Limits] (players : Registry) :
    (∀ parts, (line parts).toLine = parts.flatMap toLine) ∧
      (∀ parts, parts ≠ [] → PartsWithin (Nat.clog 2 parts.length) parts (line parts)) ∧
      (∀ m : Music, ∀ part ∈ m.toLine,
        (∀ left right, part ≠ sequential left right) ∧ part ≠ rest 0) ∧
      ∀ (m : Music) (c : Context), 0 < c.tempo →
        (line m.toLine).perform players c = m.perform players c ∧
          (Operand.music (line m.toLine)).perform players c =
            (Operand.music m).perform players c := by
  refine ⟨toLine_line, fun _ => partsWithin_line, fun _ _ => ne_of_mem_toLine, ?_⟩
  intro m c moving
  have alike : AlikeInTime players (line m.toLine) m :=
    (line_toLine m).alikeInTime fun _ _ law => law.elim Regroups.alikeInTime Pads.alikeInTime
  exact ⟨alike.performed c moving, alike.operand moving⟩

/-- A slurred passage behind silence of no length, which ends after the note that follows it. -/
def interruptedPassage : Music :=
  sequential (sequential (quarter .g) (rest 0)) (slurredPassage (quarter .a))

open Usual

/-- Its line has one silence less, and the unruly player is heard alike. -/
theorem interruptedPassage_line :
    [quarter .g, quarter .a, quarter .e] ≠ [] ∧ quarter .e ∈ interruptedPassage.toLine ∧
      0 < ({} : Context).tempo ∧
      PartsWithin 2 [quarter .g, quarter .a, quarter .e]
        (line [quarter .g, quarter .a, quarter .e]) ∧
      quarter .e ≠ rest 0 ∧
      (line interruptedPassage.toLine).agrees interruptedPassage = false ∧
      ∃ p, interruptedPassage.perform ⟨[("default", unruly)]⟩ {} = .ok p ∧
        (line interruptedPassage.toLine).perform ⟨[("default", unruly)]⟩ {} = .ok p := by
  obtain ⟨-, shallow, audible, performed⟩ := line_toLine_inverse ⟨[("default", unruly)]⟩
  have moving : 0 < ({} : Context).tempo := by decide +kernel
  have some : [quarter .g, quarter .a, quarter .e] ≠ [] := List.cons_ne_nil _ _
  have member : quarter .e ∈ interruptedPassage.toLine := by
    have own : (quarter .e).toLine = [quarter .e] := toLine_eq_singleton rfl rfl
    simp [interruptedPassage, slurredPassage, toLine_sequential, own]
  have logarithm : Nat.clog 2 [quarter .g, quarter .a, quarter .e].length = 2 := by decide +kernel
  have depth := shallow _ some
  rw [logarithm] at depth
  have different : (line interruptedPassage.toLine).agrees interruptedPassage = false := by
    decide +kernel
  obtain ⟨p, played⟩ := exists_of_isOk (show
    (interruptedPassage.perform ⟨[("default", unruly)]⟩ {}).isOk = true by decide +kernel)
  have same := (performed interruptedPassage {} moving).1
  exact ⟨some, member, moving, depth, (audible _ _ member).2, different, p, played,
    same.trans played⟩

end MusicAlgebra.Music
