import MusicAlgebra.Proofs.Rearrangement
import MusicAlgebra.Proofs.RetimedPerformance

/-!
# Distributing modifiers

A modifier of a composition may as well stand at each of its operands, unless it is a phrase: it
derives the same context for both, and a tempo that is moved to the operands makes the second one
enter at the same moment as before.  Used at all places from the top down, this law brings every
modifier down to the notes, rests and phrases of a score, where no composition stands below a
modifier any more except inside a phrase.  Nothing is asked of the players.
-/

namespace MusicAlgebra

open Outcome

variable {players : Registry} {c inside : Context} {modifier : Modifier}

theorem Amount.max_dividedBy (a b : Amount) (s : Scale) :
    (max a b).dividedBy s = max (a.dividedBy s) (b.dividedBy s) := by
  simp only [max_def, le_def, val_dividedBy, div_le_div_iff_of_pos_right s.pos]
  split
  · rfl
  · rfl

namespace Modifier

/-- Passages in sequence add up outside a modifier as they do inside. -/
theorem outward_add (plain : ∀ attributes, modifier ≠ .phrase attributes) (a b : Amount) :
    modifier.outward (a + b) = modifier.outward a + modifier.outward b := by
  cases modifier with
  | tempo scale => exact Amount.ext (add_div a.val b.val scale.val)
  | phrase attributes => exact absurd rfl (plain attributes)
  | _ => rfl

theorem outward_max (plain : ∀ attributes, modifier ≠ .phrase attributes) (a b : Amount) :
    modifier.outward (max a b) = max (modifier.outward a) (modifier.outward b) := by
  cases modifier with
  | tempo scale => exact Amount.max_dividedBy a b scale
  | phrase attributes => exact absurd rfl (plain attributes)
  | _ => rfl

end Modifier

/-- A modifier derives the same from a later context, only later. -/
theorem Context.under_later [Limits] (derived : c.under players modifier = .ok inside) (t : Rat) :
    { c with startTime := c.startTime + t }.under players modifier =
      .ok { inside with startTime := inside.startTime + t } := by
  rw [← Retiming.delay_context, under_retimed, derived, map_ok, Retiming.delay_context]

namespace Music

open Performance

variable {m n : Music}

/-! ## The law -/

/-- The second operand enters at the same moment, since the length of the first one is divided by the
same tempo. -/
theorem perform_modified_sequential [Limits] (players : Registry)
    (plain : ∀ attributes, modifier ≠ .phrase attributes) (left right : Music)
    (moving : 0 < c.tempo) :
    (modified modifier (sequential left right)).perform players c =
      (sequential (modified modifier left) (modified modifier right)).perform players c := by
  rw [perform_modified players _ c plain, perform_sequential_pair players _ _ moving,
    perform_modified players left c plain,
    perform_modified players right { c with startTime := _ } plain]
  cases derived : c.under players modifier with
  | error failure => rfl
  | ok inside =>
      -- The length of the first operand under the old tempo is its length under the new one.
      have lasted := Context.outward_div_tempo derived
      have later := Context.under_later derived (left.duration.val / inside.tempo)
      rw [ok_bind, perform_sequential_pair players _ _ (Context.under_tempo_pos derived moving)]
      simp only [duration_sequential, duration_modified, ← Modifier.outward_add plain, lasted,
        later, ok_bind]

theorem perform_modified_parallel [Limits] (players : Registry)
    (plain : ∀ attributes, modifier ≠ .phrase attributes) (left right : Music)
    (moving : 0 < c.tempo) :
    (modified modifier (parallel left right)).perform players c =
      (parallel (modified modifier left) (modified modifier right)).perform players c := by
  rw [perform_modified players _ c plain, perform_parallel_pair players _ _ moving,
    perform_modified players left c plain, perform_modified players right c plain]
  cases derived : c.under players modifier with
  | error failure => rfl
  | ok inside =>
      have lasted := Context.outward_div_tempo derived
      rw [ok_bind, perform_parallel_pair players _ _ (Context.under_tempo_pos derived moving)]
      simp only [duration_parallel, duration_modified, ← Modifier.outward_max plain, lasted,
        ok_bind]

/-- A modifier of a composition, and of each of its operands. -/
inductive Distributes : Music → Music → Prop where
  | through (kind : Composition) {modifier : Modifier}
      (plain : ∀ attributes, modifier ≠ .phrase attributes) (left right : Music) :
      Distributes (modified modifier (compose kind left right))
        (compose kind (modified modifier left) (modified modifier right))

theorem Distributes.alikeInTime [Limits] (distributes : Distributes m n) :
    AlikeInTime players m n := by
  cases distributes with
  | through kind plain left right =>
      constructor
      · cases kind with
        | sequential =>
            simp only [compose, duration_modified, duration_sequential, Modifier.outward_add plain]
        | parallel =>
            simp only [compose, duration_modified, duration_parallel, Modifier.outward_max plain]
      · intro c moving
        cases kind with
        | sequential => exact perform_modified_sequential players plain left right moving
        | parallel => exact perform_modified_parallel players plain left right moving

/-! ## Distributing as far as possible -/

/-- A modifier brought down to the operands of all compositions at the root. -/
def distribute (modifier : Modifier) : Music → Music
  | sequential left right => sequential (distribute modifier left) (distribute modifier right)
  | parallel left right => parallel (distribute modifier left) (distribute modifier right)
  | other => modified modifier other

/-- The score with all modifiers brought down to notes, rests and phrases. -/
def distributed : Music → Music
  | sequential left right => sequential left.distributed right.distributed
  | parallel left right => parallel left.distributed right.distributed
  | modified (.phrase attributes) inner => modified (.phrase attributes) inner.distributed
  | modified modifier inner => distribute modifier inner.distributed
  | leaf => leaf

theorem distributed_modified (inner : Music)
    (plain : ∀ attributes, modifier ≠ .phrase attributes) :
    (modified modifier inner).distributed = distribute modifier inner.distributed := by
  cases modifier with
  | phrase attributes => exact absurd rfl (plain attributes)
  | _ => rfl

def isComposition : Music → Bool
  | sequential .. | parallel .. => true
  | _ => false

/-- Whether no modifier stands at a composition, unless it is a phrase. -/
def Settled : Music → Prop
  | note _ => True
  | rest _ => True
  | sequential left right => left.Settled ∧ right.Settled
  | parallel left right => left.Settled ∧ right.Settled
  | modified (.phrase _) inner => inner.Settled
  | modified _ inner => inner.isComposition = false ∧ inner.Settled

theorem settled_modified {inner : Music} (plain : ∀ attributes, modifier ≠ .phrase attributes) :
    (modified modifier inner).Settled ↔ inner.isComposition = false ∧ inner.Settled := by
  cases modifier with
  | phrase attributes => exact absurd rfl (plain attributes)
  | _ => rfl

theorem settled_distribute (plain : ∀ attributes, modifier ≠ .phrase attributes)
    (settled : m.Settled) : (distribute modifier m).Settled := by
  induction m with
  | sequential left right leftIH rightIH => exact ⟨leftIH settled.1, rightIH settled.2⟩
  | parallel left right leftIH rightIH => exact ⟨leftIH settled.1, rightIH settled.2⟩
  | _ => exact (settled_modified plain).2 ⟨rfl, settled⟩

theorem rearranged_distribute (plain : ∀ attributes, modifier ≠ .phrase attributes) (m : Music) :
    Rearranged Distributes (modified modifier m) (distribute modifier m) := by
  induction m with
  | sequential left right leftIH rightIH =>
      exact .trans (.here (.through .sequential plain left right)) (.sequential leftIH rightIH)
  | parallel left right leftIH rightIH =>
      exact .trans (.here (.through .parallel plain left right)) (.parallel leftIH rightIH)
  | _ => exact .refl _

theorem settled_distributed (m : Music) : m.distributed.Settled := by
  induction m with
  | note n => trivial
  | rest length => trivial
  | sequential left right leftIH rightIH => exact ⟨leftIH, rightIH⟩
  | parallel left right leftIH rightIH => exact ⟨leftIH, rightIH⟩
  | modified modifier inner ih =>
      by_cases phrased : ∃ attributes, modifier = .phrase attributes
      · obtain ⟨attributes, rfl⟩ := phrased
        exact ih
      · have plain := not_exists.1 phrased
        rw [distributed_modified inner plain]
        exact settled_distribute plain ih

theorem rearranged_distributed (m : Music) : Rearranged Distributes m m.distributed := by
  induction m with
  | note n => exact .refl _
  | rest length => exact .refl _
  | sequential left right leftIH rightIH => exact .sequential leftIH rightIH
  | parallel left right leftIH rightIH => exact .parallel leftIH rightIH
  | modified modifier inner ih =>
      by_cases phrased : ∃ attributes, modifier = .phrase attributes
      · obtain ⟨attributes, rfl⟩ := phrased
        exact ih.modified (.phrase attributes)
      · have plain := not_exists.1 phrased
        rw [distributed_modified inner plain]
        exact (ih.modified modifier).trans (rearranged_distribute plain inner.distributed)

/-- Modifiers distribute over compositions, whoever plays.  Under a positive tempo moving them
through compositions at any places, down or up, changes neither the length of a score nor its
performance, failures included; so every score can be performed with all its modifiers at notes,
rests and phrases. -/
theorem perform_distributed [Limits] (players : Registry) :
    (∀ m n, Rearranged Distributes m n →
      m.duration = n.duration ∧ ∀ c, 0 < c.tempo →
        m.perform players c = n.perform players c ∧
          (Operand.music m).perform players c = (Operand.music n).perform players c) ∧
      ∀ m, Rearranged Distributes m m.distributed ∧ m.distributed.Settled ∧
        m.distributed.duration = m.duration ∧ ∀ c, 0 < c.tempo →
          m.distributed.perform players c = m.perform players c ∧
            (Operand.music m.distributed).perform players c =
              (Operand.music m).perform players c := by
  have unchanged : ∀ m n, Rearranged Distributes m n →
      m.duration = n.duration ∧ ∀ c, 0 < c.tempo →
        m.perform players c = n.perform players c ∧
          (Operand.music m).perform players c = (Operand.music n).perform players c := by
    intro m n rearranged
    have alike : AlikeInTime players m n := rearranged.alikeInTime fun _ _ => Distributes.alikeInTime
    refine ⟨alike.lasting, ?_⟩
    intro c moving
    have same := alike.performed c moving
    exact ⟨same, by rw [Operand.perform, Operand.perform, same]⟩
  refine ⟨unchanged, ?_⟩
  intro m
  have rearranged := rearranged_distributed m
  exact ⟨rearranged, settled_distributed m, unchanged _ _ rearranged.symm⟩

/-- A passage at another tempo and with a player of its own: a phrase before two voices. -/
def hurriedVoices : Music :=
  modified (.tempo ⟨7 / 4, by decide +kernel⟩)
    (modified (.player (.text "unruly"))
      (sequential
        (modified (.phrase [.legato (.nearest 2)]) (sequential (quarter .c) (quarter .e)))
        (parallel (modified (.dynamics (-20)) (parallel (quarter .a) (quarter .f))) (quarter .g))))

open Usual

theorem hurriedVoices_distributed :
    Rearranged Distributes hurriedVoices hurriedVoices.distributed ∧
      hurriedVoices.distributed.Settled ∧ 0 < ({} : Context).tempo ∧
      hurriedVoices.duration = hurriedVoices.distributed.duration ∧
      ∃ p, hurriedVoices.perform ⟨[("unruly", unruly)]⟩ {} = .ok p ∧
        hurriedVoices.distributed.perform ⟨[("unruly", unruly)]⟩ {} = .ok p := by
  have moving : 0 < ({} : Context).tempo := by decide +kernel
  obtain ⟨p, performed⟩ := exists_of_isOk (show
    (hurriedVoices.perform ⟨[("unruly", unruly)]⟩ {}).isOk = true by decide +kernel)
  have law := perform_distributed ⟨[("unruly", unruly)]⟩
  obtain ⟨rearranged, settled, -⟩ := law.2 hurriedVoices
  obtain ⟨lasting, same⟩ := law.1 hurriedVoices hurriedVoices.distributed rearranged
  exact ⟨rearranged, settled, moving, lasting, p, performed,
    (same {} moving).1.symm.trans performed⟩

end Music

end MusicAlgebra
