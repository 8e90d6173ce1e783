import MusicAlgebra.Proofs.Rearrangement
import MusicAlgebra.Score.Line

/-!
# Regrouping

Both compositions are associative to the ear, whatever the players do, since the interpreter only
looks at the operands of a chain.  So a line or a chord may be built as any tree of its parts.

Under a positive tempo silence of no length is a unit of both compositions, although it breaks up
chains: the streams of the pieces are merged first, and the merged streams then with the rest, which
makes no difference even if a player sounds notes out of order.
-/

namespace MusicAlgebra.Music

open Outcome Performance

variable {players : Registry} {c : Context} {m n : Music}

/-- Two neighbouring compositions of one kind, grouped to the left and to the right. -/
inductive Regroups : Music → Music → Prop where
  | assoc (kind : Composition) (first second third : Music) :
      Regroups (compose kind (compose kind first second) third)
        (compose kind first (compose kind second third))

/-- Music, and the same music with silence of no length before it or after it. -/
inductive Pads : Music → Music → Prop where
  | before (kind : Composition) (m : Music) : Pads m (compose kind (rest 0) m)
  | after (kind : Composition) (m : Music) : Pads m (compose kind m (rest 0))

/-- Both groupings have the same operands. -/
theorem Regroups.alike [Limits] (regrouped : Regroups m n) : Alike players m n := by
  cases regrouped with
  | assoc kind first second third =>
      apply Alike.of_chain
      simp only [flatten_compose, List.append_assoc]
      exact List.forall₂_same.2 fun part _ c => rfl

theorem Regroups.alikeInTime [Limits] (regrouped : Regroups m n) : AlikeInTime players m n := by
  apply regrouped.alike.inTime
  cases regrouped with
  | assoc kind first second third =>
      cases kind with
      | sequential => simp only [compose, duration_sequential, Amount.add_assoc]
      | parallel => simp only [compose, duration_parallel, Amount.max_assoc]

/-- The stream of silence is empty, and merging it changes nothing. -/
theorem Pads.alikeInTime [Limits] (padded : Pads m n) : AlikeInTime players m n := by
  constructor
  · cases padded with
    | before kind => cases kind <;> simp [compose]
    | after kind => cases kind <;> simp [compose]
  · intro c moving
    rw [← perform_with_duration players m moving]
    cases padded with
    | before kind =>
        cases kind with
        | sequential =>
            rw [compose, perform_sequential_pair players _ _ moving, events_rest players 0 moving]
            simp
        | parallel =>
            rw [compose, perform_parallel_pair players _ _ moving, events_rest players 0 moving]
            simp
    | after kind =>
        cases kind with
        | sequential =>
            have later := events_rest players 0
              (c := { c with startTime := c.startTime + m.duration.val / c.tempo }) moving
            rw [compose, perform_sequential_pair players _ _ moving, later]
            simp only [ok_bind, List.merge_right, duration_sequential, duration_rest,
              Amount.add_zero]
        | parallel =>
            rw [compose, perform_parallel_pair players _ _ moving, events_rest players 0 moving]
            simp only [ok_bind, List.merge_right, duration_parallel, duration_rest, Amount.max_zero]

/-! ## Lines and chords -/

/-- The parts composed from the right, silence of no length if there are none. -/
def nested (kind : Composition) : List Music → Music
  | [] => rest 0
  | [part] => part
  | first :: second :: others => compose kind first (nested kind (second :: others))

theorem nested_append (kind : Composition) {parts others : List Music} (some : parts ≠ [])
    (more : others ≠ []) :
    Rearranged Regroups (compose kind (nested kind parts) (nested kind others))
      (nested kind (parts ++ others)) := by
  induction parts with
  | nil => exact absurd rfl some
  | cons first parts ih =>
      cases parts with
      | nil =>
          obtain ⟨second, others, rfl⟩ := List.exists_cons_of_ne_nil more
          exact .refl _
      | cons second parts =>
          apply Rearranged.trans (.here (.assoc kind first (nested kind (second :: parts)) _))
          exact .compose kind (.refl first) (ih (List.cons_ne_nil second parts))

/-- What holds of a single part, and of two lists put together, the second one as long as the first
one or longer by a part, holds of the balanced tree of any parts. -/
theorem balanced_induction {α : Type} {combine : α → α → α} {empty : α} {motive : List α → α → Prop}
    (single : ∀ part, motive [part] part)
    (joined : ∀ parts others left right, parts ≠ [] → parts.length ≤ others.length →
      others.length ≤ parts.length + 1 → motive parts left → motive others right →
        motive (parts ++ others) (combine left right))
    {parts : List α} (some : parts ≠ []) : motive parts (balanced combine empty parts) := by
  induction parts using balanced.induct with
  | case1 => exact absurd rfl some
  | case2 part =>
      rw [balanced]
      exact single part
  | case3 first second others parts half leftIH rightIH =>
      have halves : 0 < half ∧ parts.length = half + (parts.length - half) ∧
          half ≤ parts.length - half ∧ parts.length - half ≤ half + 1 := by
        simp only [half, parts, List.length_cons]
        omega
      have left : (parts.take half).length = half := by
        rw [List.length_take]
        omega
      have right : (parts.drop half).length = parts.length - half := List.length_drop
      have leftSome : parts.take half ≠ [] := List.ne_nil_of_length_pos (by omega)
      have rightSome : parts.drop half ≠ [] := List.ne_nil_of_length_pos (by omega)
      have whole := joined _ _ _ _ leftSome (by omega) (by omega) (leftIH leftSome)
        (rightIH rightSome)
      rw [List.take_append_drop] at whole
      rw [balanced]
      exact whole

/-- The balanced tree of a list of parts. -/
theorem balanced_regroups (kind : Composition) (parts : List Music) :
    Rearranged Regroups (balanced (compose kind) (rest 0) parts) (nested kind parts) := by
  cases parts with
  | nil =>
      rw [balanced]
      exact .refl _
  | cons first parts =>
      apply balanced_induction (motive := fun parts tree =>
        Rearranged Regroups tree (nested kind parts))
      · exact .refl
      · intro parts others left right some order _ leftRegroups rightRegroups
        have more : others ≠ [] := by
          apply List.ne_nil_of_length_pos
          exact (List.length_pos_of_ne_nil some).trans_le order
        exact (Rearranged.compose kind leftRegroups rightRegroups).trans (nested_append kind some more)
      · exact List.cons_ne_nil first parts

/-- The tree that is grouped to the left. -/
theorem foldl_regroups (kind : Composition) (first : Music) (others : List Music) :
    Rearranged Regroups (others.foldl (compose kind) first) (nested kind (first :: others)) := by
  induction others generalizing first with
  | nil => exact .refl first
  | cons second others ih =>
      apply (ih (compose kind first second)).trans
      cases others with
      | nil => exact .refl _
      | cons third others => exact .here (.assoc kind first second _)

/-- A performance does not depend on how a score is grouped, whoever plays it.  Regrouping its
chains at any places changes neither events nor duration nor failure, so that lines and chords may
be folded from either side; under a positive tempo silence of no length may be put in at any
places as well. -/
theorem perform_regrouped [Limits] (players : Registry) :
    (∀ m n, Rearranged Regroups m n → ∀ c,
      m.perform players c = n.perform players c ∧
        (Operand.music m).perform players c = (Operand.music n).perform players c) ∧
      (∀ first others c,
        (line (first :: others)).perform players c =
            (others.foldl sequential first).perform players c ∧
          (line (first :: others)).perform players c =
            (nested .sequential (first :: others)).perform players c ∧
          (chord (first :: others)).perform players c =
            (others.foldl parallel first).perform players c ∧
          (chord (first :: others)).perform players c =
            (nested .parallel (first :: others)).perform players c) ∧
      ∀ m n, Rearranged (fun m n => Regroups m n ∨ Pads m n) m n → ∀ c, 0 < c.tempo →
        m.perform players c = n.perform players c ∧
          (Operand.music m).perform players c = (Operand.music n).perform players c := by
  have regrouped : ∀ {m n}, Rearranged Regroups m n → PerformedAlike players m n :=
    fun rearranged => (rearranged.alike fun _ _ => Regroups.alike).whole
  refine ⟨?_, ?_, ?_⟩
  · intro m n rearranged c
    have same := regrouped rearranged c
    exact ⟨same, by rw [Operand.perform, Operand.perform, same]⟩
  · intro first others c
    have fromLeft := fun kind => (foldl_regroups kind first others).symm
    have fromRight := fun kind => balanced_regroups kind (first :: others)
    exact ⟨regrouped ((fromRight .sequential).trans (fromLeft .sequential)) c,
      regrouped (fromRight .sequential) c,
      regrouped ((fromRight .parallel).trans (fromLeft .parallel)) c,
      regrouped (fromRight .parallel) c⟩
  · intro m n rearranged c moving
    have alike : AlikeInTime players m n := by
      apply rearranged.alikeInTime
      rintro m n (regroups | pads)
      · exact regroups.alikeInTime
      · exact pads.alikeInTime
    have same := alike.performed c moving
    exact ⟨same, by rw [Operand.perform, Operand.perform, same]⟩

/-- A slurred passage before a note that begins while the slurred events still ring. -/
def slurredPassage (passage : Music) : Music :=
  sequential (modified (.phrase [.legato (.nearest 2)]) passage) (quarter .e)

open Usual

theorem slurredPassage_performed_alike :
    let fromLeft := slurredPassage (sequential (sequential (quarter .c) (quarter .a)) (quarter .c))
    let fromRight := slurredPassage (sequential (quarter .c) (sequential (quarter .a) (quarter .c)))
    let padded := slurredPassage
      (sequential (sequential (quarter .c) (parallel (rest 0) (quarter .a))) (quarter .c))
    Rearranged Regroups fromLeft fromRight ∧
      Rearranged (fun m n => Regroups m n ∨ Pads m n) padded fromRight ∧
      0 < ({} : Context).tempo ∧
      ∃ p, fromLeft.perform ⟨[("default", unruly)]⟩ {} = .ok p ∧
        fromRight.perform ⟨[("default", unruly)]⟩ {} = .ok p ∧
        padded.perform ⟨[("default", unruly)]⟩ {} = .ok p := by
  intro fromLeft fromRight padded
  have regrouped : Rearranged Regroups fromLeft fromRight := by
    apply Rearranged.sequential
    · exact .modified _ (.here (.assoc .sequential _ _ _))
    · exact .refl _
  have unpadded : Rearranged (fun m n => Regroups m n ∨ Pads m n) padded fromRight := by
    apply Rearranged.sequential
    · apply Rearranged.modified
      apply Rearranged.trans
      · apply Rearranged.symm
        exact .sequential (.sequential (.refl _) (.here (.inr (.before .parallel _)))) (.refl _)
      · exact .here (.inl (.assoc .sequential _ _ _))
    · exact .refl _
  have moving : 0 < ({} : Context).tempo := by decide +kernel
  obtain ⟨p, performed⟩ := exists_of_isOk (show
    (fromLeft.perform ⟨[("default", unruly)]⟩ {}).isOk = true by decide +kernel)
  have fromEither := ((perform_regrouped ⟨[("default", unruly)]⟩).1 _ _ regrouped {}).1
  have withSilence := ((perform_regrouped ⟨[("default", unruly)]⟩).2.2 _ _ unpadded {} moving).1
  refine ⟨regrouped, unpadded, moving, p, performed, ?_, ?_⟩
  · rw [← fromEither, performed]
  · rw [withSilence, ← fromEither, performed]

end MusicAlgebra.Music
