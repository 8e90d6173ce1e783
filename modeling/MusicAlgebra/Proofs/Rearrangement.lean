import Mathlib.Data.List.Forall2
import MusicAlgebra.Proofs.PerformedPairs

/-!
# Rearranging a score

A law of the algebra may be used anywhere in a score, under modifiers and inside chains, any
number of times and in both directions.  This module shows that such rearrangements cannot be
heard if single uses of the law at the root cannot.

What must be known of a single use depends on the tempo.  Under a positive tempo it is enough that
both sides last equally long and are performed alike, since compositions are performed pair by pair.
Under any other tempo nothing is known of the length of a performance, and a composition is no more
than the sequence of its operands: then these must be performed alike, one by one.
-/

namespace MusicAlgebra.Music

open Outcome Performance

variable {players : Registry} {law : Music → Music → Prop} {m n : Music}

/-- Scores that differ by uses of a law at any places. -/
inductive Rearranged (law : Music → Music → Prop) : Music → Music → Prop where
  | here {m n : Music} (applied : law m n) : Rearranged law m n
  | refl (m : Music) : Rearranged law m m
  | symm {m n : Music} : Rearranged law m n → Rearranged law n m
  | trans {m n o : Music} : Rearranged law m n → Rearranged law n o → Rearranged law m o
  | sequential {left left' right right' : Music} :
      Rearranged law left left' → Rearranged law right right' →
        Rearranged law (sequential left right) (sequential left' right')
  | parallel {left left' right right' : Music} :
      Rearranged law left left' → Rearranged law right right' →
        Rearranged law (parallel left right) (parallel left' right')
  | modified (modifier : Modifier) {inner inner' : Music} :
      Rearranged law inner inner' →
        Rearranged law (modified modifier inner) (modified modifier inner')

/-- The composition of a kind. -/
def compose : Composition → Music → Music → Music
  | .sequential => sequential
  | .parallel => parallel

@[simp] theorem operands?_compose (kind : Composition) (left right : Music) :
    (compose kind left right).operands? kind = some (left, right) := by
  cases kind <;> rfl

theorem operands?_compose_of_ne {kind other : Composition} (different : other ≠ kind)
    (left right : Music) : (compose kind left right).operands? other = none := by
  cases kind with
  | sequential =>
      cases other with
      | sequential => exact absurd rfl different
      | parallel => rfl
  | parallel =>
      cases other with
      | sequential => rfl
      | parallel => exact absurd rfl different

@[simp] theorem flatten_compose (kind : Composition) (left right : Music) :
    flatten kind (compose kind left right) = flatten kind left ++ flatten kind right :=
  flatten_of_some (operands?_compose kind left right)

theorem Rearranged.compose (kind : Composition) {left left' right right' : Music}
    (first : Rearranged law left left') (second : Rearranged law right right') :
    Rearranged law (compose kind left right) (compose kind left' right') := by
  cases kind with
  | sequential => exact .sequential first second
  | parallel => exact .parallel first second

theorem Rearranged.mono {weaker : Music → Music → Prop} (implies : ∀ m n, law m n → weaker m n)
    (rearranged : Rearranged law m n) : Rearranged weaker m n := by
  induction rearranged with
  | here applied => exact .here (implies _ _ applied)
  | refl m => exact .refl m
  | symm _ ih => exact ih.symm
  | trans _ _ firstIH secondIH => exact firstIH.trans secondIH
  | sequential _ _ leftIH rightIH => exact .sequential leftIH rightIH
  | parallel _ _ leftIH rightIH => exact .parallel leftIH rightIH
  | modified modifier _ ih => exact .modified modifier ih

/-! ## Arbitrary tempos -/

/-- Two scores that are performed alike in every context. -/
def PerformedAlike [Limits] (players : Registry) (m n : Music) : Prop :=
  ∀ c, m.perform players c = n.perform players c

/-- Two scores that are performed alike as a whole and as part of any chain. -/
structure Alike [Limits] (players : Registry) (m n : Music) : Prop where
  whole : PerformedAlike players m n
  operands : ∀ kind,
    List.Forall₂ (PerformedAlike players) (flatten kind m) (flatten kind n)

theorem inTurn_congr (play : Music → Rat → Except PerformFailure Performance)
    {parts others : List Music}
    (alike : List.Forall₂ (fun part other => ∀ start, play part start = play other start)
      parts others) (start : Rat) : inTurn play parts start = inTurn play others start := by
  induction alike generalizing start with
  | nil => rfl
  | cons first _ ih => simp only [inTurn, first, ih]

theorem together_congr (play : Music → Except PerformFailure Performance)
    {parts others : List Music}
    (alike : List.Forall₂ (fun part other => play part = play other) parts others)
    (longest : Rat) : together play parts longest = together play others longest := by
  induction alike generalizing longest with
  | nil => rfl
  | cons first _ ih => simp only [together, first, ih]

/-- A chain is determined by how its operands are performed. -/
theorem performedAlike_compose [Limits] {kind : Composition} {left right left' right' : Music}
    (operands : List.Forall₂ (PerformedAlike players) (flatten kind (compose kind left right))
      (flatten kind (compose kind left' right'))) :
    PerformedAlike players (compose kind left right) (compose kind left' right') := by
  intro c
  cases kind with
  | sequential =>
      have chains := inTurn_congr
        (fun part start => part.perform players { c with startTime := start })
        (operands.imp fun _ _ alike start => alike _) c.startTime
      simp only [compose] at chains
      rw [compose, perform_sequential, perform_sequential, chains]
  | parallel =>
      have chains := together_congr (fun part => part.perform players c)
        (operands.imp fun _ _ alike => alike c) 0
      simp only [compose] at chains
      rw [compose, perform_parallel, perform_parallel, chains]

theorem forall₂_performedAlike_trans [Limits] {parts others : List Music}
    (first : List.Forall₂ (PerformedAlike players) parts others) {ends : List Music}
    (second : List.Forall₂ (PerformedAlike players) others ends) :
    List.Forall₂ (PerformedAlike players) parts ends := by
  induction first generalizing ends with
  | nil => exact second
  | cons same _ ih =>
      cases second with
      | cons next rest => exact .cons (fun c => (same c).trans (next c)) (ih rest)

namespace Alike

theorem refl [Limits] (m : Music) : Alike players m m := by
  constructor
  · intro c
    rfl
  · intro kind
    exact List.forall₂_same.2 fun part _ c => rfl

theorem symm [Limits] (alike : Alike players m n) : Alike players n m := by
  constructor
  · intro c
    exact (alike.whole c).symm
  · intro kind
    exact ((alike.operands kind).imp fun _ _ same c => (same c).symm).flip

theorem trans [Limits] {o : Music} (first : Alike players m n) (second : Alike players n o) :
    Alike players m o := by
  constructor
  · intro c
    exact (first.whole c).trans (second.whole c)
  · intro kind
    exact forall₂_performedAlike_trans (first.operands kind) (second.operands kind)

/-- Chains of operands that are performed alike are alike. -/
theorem of_chain [Limits] {kind : Composition} {left right left' right' : Music}
    (operands : List.Forall₂ (PerformedAlike players) (flatten kind (compose kind left right))
      (flatten kind (compose kind left' right'))) :
    Alike players (compose kind left right) (compose kind left' right') := by
  have whole := performedAlike_compose operands
  constructor
  · exact whole
  · intro other
    by_cases same : other = kind
    · subst same
      exact operands
    · rw [flatten_of_none (operands?_compose_of_ne same left right),
        flatten_of_none (operands?_compose_of_ne same left' right')]
      exact .cons whole .nil

theorem compose [Limits] (kind : Composition) {left left' right right' : Music}
    (first : Alike players left left') (second : Alike players right right') :
    Alike players (compose kind left right) (compose kind left' right') := by
  apply of_chain
  rw [flatten_compose, flatten_compose]
  exact List.rel_append (first.operands kind) (second.operands kind)

theorem modified [Limits] (modifier : Modifier) (inner : Alike players m n) :
    Alike players (modified modifier m) (modified modifier n) := by
  have whole : PerformedAlike players (.modified modifier m) (.modified modifier n) := by
    intro c
    by_cases phrased : ∃ attributes, modifier = .phrase attributes
    · obtain ⟨attributes, rfl⟩ := phrased
      rw [perform_phrase, perform_phrase]
      simp only [inner.whole _]
    · rw [perform_modified players m c (not_exists.1 phrased),
        perform_modified players n c (not_exists.1 phrased)]
      simp only [inner.whole _]
  constructor
  · exact whole
  · intro kind
    have alone : ∀ m, flatten kind (.modified modifier m) = [.modified modifier m] := by
      intro m
      apply flatten_of_none
      cases kind <;> rfl
    rw [alone m, alone n]
    exact .cons whole .nil

end Alike

/-- A law whose two sides are alike for some players can be used anywhere. -/
theorem Rearranged.alike [Limits] (sound : ∀ m n, law m n → Alike players m n)
    (rearranged : Rearranged law m n) : Alike players m n := by
  induction rearranged with
  | here applied => exact sound _ _ applied
  | refl m => exact .refl m
  | symm _ ih => exact ih.symm
  | trans _ _ firstIH secondIH => exact firstIH.trans secondIH
  | sequential _ _ leftIH rightIH => exact .compose .sequential leftIH rightIH
  | parallel _ _ leftIH rightIH => exact .compose .parallel leftIH rightIH
  | modified modifier _ ih => exact ih.modified modifier

/-! ## Positive tempos -/

/-- Two scores that last equally long and are performed alike under every positive tempo. -/
structure AlikeInTime [Limits] (players : Registry) (m n : Music) : Prop where
  lasting : m.duration = n.duration
  performed : ∀ c, 0 < c.tempo → m.perform players c = n.perform players c

theorem Alike.inTime [Limits] (alike : Alike players m n) (lasting : m.duration = n.duration) :
    AlikeInTime players m n := by
  constructor
  · exact lasting
  · intro c moving
    exact alike.whole c

namespace AlikeInTime

theorem sequential [Limits] {left left' right right' : Music}
    (first : AlikeInTime players left left')
    (second : AlikeInTime players right right') :
    AlikeInTime players (sequential left right) (sequential left' right') := by
  have lasting : (Music.sequential left right).duration =
      (Music.sequential left' right').duration := by
    rw [duration_sequential, duration_sequential, first.lasting, second.lasting]
  constructor
  · exact lasting
  · intro c moving
    have entered := second.performed
      { c with startTime := c.startTime + left'.duration.val / c.tempo } moving
    rw [perform_sequential_pair players left right moving,
      perform_sequential_pair players left' right' moving, lasting, first.lasting,
      first.performed c moving, entered]

theorem parallel [Limits] {left left' right right' : Music} (first : AlikeInTime players left left')
    (second : AlikeInTime players right right') :
    AlikeInTime players (parallel left right) (parallel left' right') := by
  have lasting : (Music.parallel left right).duration =
      (Music.parallel left' right').duration := by
    rw [duration_parallel, duration_parallel, first.lasting, second.lasting]
  constructor
  · exact lasting
  · intro c moving
    rw [perform_parallel_pair players left right moving,
      perform_parallel_pair players left' right' moving, lasting, first.performed c moving,
      second.performed c moving]

theorem modified [Limits] (modifier : Modifier) (inner : AlikeInTime players m n) :
    AlikeInTime players (modified modifier m) (modified modifier n) := by
  constructor
  · rw [duration_modified, duration_modified, inner.lasting]
  · intro c moving
    by_cases phrased : ∃ attributes, modifier = .phrase attributes
    · obtain ⟨attributes, rfl⟩ := phrased
      have insideMoving : 0 < (c.withLoudness attributes).tempo := by
        rwa [Context.withLoudness_tempo]
      rw [perform_phrase, perform_phrase]
      simp only [inner.performed _ insideMoving]
    · rw [perform_modified players m c (not_exists.1 phrased),
        perform_modified players n c (not_exists.1 phrased)]
      cases derived : c.under players modifier with
      | error failure => rfl
      | ok inside => exact inner.performed inside (Context.under_tempo_pos derived moving)

/-- The public entry makes no difference between them. -/
theorem operand [Limits] (alike : AlikeInTime players m n) {c : Context} (moving : 0 < c.tempo) :
    (Operand.music m).perform players c = (Operand.music n).perform players c := by
  rw [Operand.perform, Operand.perform, alike.performed c moving]

end AlikeInTime

/-- A law whose two sides last equally long and are performed alike can be used anywhere. -/
theorem Rearranged.alikeInTime [Limits] (sound : ∀ m n, law m n → AlikeInTime players m n)
    (rearranged : Rearranged law m n) : AlikeInTime players m n := by
  induction rearranged with
  | here applied => exact sound _ _ applied
  | refl m => exact ⟨rfl, fun _ _ => rfl⟩
  | symm _ ih => exact ⟨ih.lasting.symm, fun c moving => (ih.performed c moving).symm⟩
  | trans _ _ firstIH secondIH =>
      exact ⟨firstIH.lasting.trans secondIH.lasting,
        fun c moving => (firstIH.performed c moving).trans (secondIH.performed c moving)⟩
  | sequential _ _ leftIH rightIH => exact leftIH.sequential rightIH
  | parallel _ _ leftIH rightIH => exact leftIH.parallel rightIH
  | modified modifier _ ih => exact ih.modified modifier

end MusicAlgebra.Music
