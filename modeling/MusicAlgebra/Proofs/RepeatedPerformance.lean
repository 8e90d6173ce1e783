import MusicAlgebra.Proofs.CutPerformance
import MusicAlgebra.Proofs.DelayedPerformance
import MusicAlgebra.Proofs.Lines

/-!
# Repeated performances

A repetition is a line of copies, each of which starts when the one before it ends.  It is heard as
the same performance over and over, later by its duration every time.  Notes that ring on sound
among those of the copies that follow; of simultaneous events those of the earlier copy come first.
-/

namespace MusicAlgebra

open Outcome

variable {players : Registry} {c : Context}

namespace Event

theorem sort_append_sort (first second : List Event) :
    sort (first ++ sort second) = sort (first ++ second) := by
  apply (inOrder_sort _).eq_of_atMoment (inOrder_sort _)
  intro moment
  simp only [atMoment_sort, atMoment_append]

theorem sort_postponed (t : Rat) (events : List Event) :
    sort (events.map (postponed t)) = (sort events).map (postponed t) := by
  apply sort_map
  intro first second
  simp only [noLater, postponed, add_le_add_iff_right]

theorem postponed_zero (e : Event) : e.postponed 0 = e := by
  rw [postponed, add_zero]

theorem postponed_postponed (s t : Rat) (e : Event) :
    (e.postponed s).postponed t = e.postponed (s + t) := by
  simp only [postponed, add_assoc]

end Event

namespace Performance

/-- The events of a number of copies, one copy behind the other, each of which begins a duration
later than the one before it. -/
def copies (n : Nat) (p : Performance) : List Event :=
  (List.range n).flatMap fun k : Nat => p.events.map (Event.postponed (k * p.duration))

/-- The same performance a number of times in a row. -/
def repeated (n : Nat) (p : Performance) : Performance :=
  ⟨Event.sort (p.copies n), n * p.duration⟩

theorem copies_succ (n : Nat) (p : Performance) :
    p.copies (n + 1) = p.events ++ (p.copies n).map (Event.postponed p.duration) := by
  have first : p.events.map (Event.postponed ((0 : Nat) * p.duration)) = p.events := by
    rw [Nat.cast_zero, zero_mul, List.map_congr_left fun e _ => e.postponed_zero, List.map_id']
  have later : ∀ k : Nat, p.events.map (Event.postponed ((k + 1 : Nat) * p.duration)) =
      (p.events.map (Event.postponed (k * p.duration))).map (Event.postponed p.duration) := by
    intro k
    have moment : ((k + 1 : Nat) : Rat) * p.duration = k * p.duration + p.duration := by
      push_cast
      ring
    rw [List.map_map, moment]
    exact List.map_congr_left fun e _ => (e.postponed_postponed _ _).symm
  rw [copies, List.range_succ_eq_map, List.flatMap_cons, List.flatMap_map, first]
  simp only [Nat.succ_eq_add_one, later, copies, List.map_flatMap]

/-- One copy, and all others a duration later. -/
theorem repeated_succ (n : Nat) {p : Performance} (order : Event.InOrder p.events) :
    p.repeated (n + 1) =
      { events := Event.merge [p.events, ((p.repeated n).postponed p.duration).events]
        duration := p.duration + n * p.duration } := by
  have others : ((p.repeated n).postponed p.duration).events =
      Event.sort ((p.copies n).map (Event.postponed p.duration)) :=
    (Event.sort_postponed _ _).symm
  have orders : ∀ stream ∈ [p.events, ((p.repeated n).postponed p.duration).events],
      Event.InOrder stream := by
    rw [others, List.forall_mem_cons, List.forall_mem_singleton]
    exact ⟨order, Event.inOrder_sort _⟩
  have whole : ((n + 1 : Nat) : Rat) * p.duration = p.duration + n * p.duration := by
    push_cast
    ring
  rw [Event.merge_eq_sort orders, others, List.flatten_cons, List.flatten_singleton,
    Event.sort_append_sort, ← copies_succ, repeated, whole]

end Performance

namespace Music

open Performance

/-- A repetition is heard as the music followed by one repetition less. -/
theorem times_succ [Limits] (players : Registry) (m : Music) (n : Nat) :
    AlikeInTime players (m.times (n + 1)) (sequential m (m.times n)) := by
  have whole : Rearranged Regroups (m.times (n + 1))
      (nested .sequential (m :: List.replicate n m)) :=
    balanced_regroups .sequential _
  have others : Rearranged Regroups (m.times n) (nested .sequential (List.replicate n m)) :=
    balanced_regroups .sequential _
  have parted : Rearranged (fun m n => Regroups m n ∨ Pads m n) (m.times (n + 1))
      (sequential m (m.times n)) :=
    (whole.mono fun _ _ => Or.inl).trans
      (((nested_cons .sequential m _).mono fun _ _ => Or.inr).trans
        (.sequential (.refl m) (others.symm.mono fun _ _ => Or.inl)))
  exact parted.alikeInTime fun _ _ law => law.elim Regroups.alikeInTime Pads.alikeInTime

theorem perform_times_succ [Limits] (builtIn : players.BuiltIn) (m : Music) (moving : 0 < c.tempo)
    (n : Nat) :
    (m.times (n + 1)).perform players c = (do
      let first ← m.perform players c
      let others ← (m.times n).perform players c
      return {
        events := Event.merge [first.events, (others.postponed (m.duration.val / c.tempo)).events]
        duration := first.duration + others.duration }) := by
  rw [(times_succ players m n).performed c moving, perform_sequential_delayed builtIn _ _ moving]

/-- Repeating what is performed: by induction on the number of copies, the first one being taken off
in front. -/
theorem perform_times_eq [Limits] (builtIn : players.BuiltIn) {m : Music} (moving : 0 < c.tempo)
    {p : Performance} (performed : m.perform players c = .ok p) (n : Nat) :
    (m.times n).perform players c = .ok (p.repeated n) := by
  have read := ((perform_eq_ok_iff builtIn.playsInOrder moving).1 performed).1
  have order := inOrder_of_performPairwise builtIn.playsInOrder read
  have lasted := duration_of_perform moving performed
  induction n with
  | zero =>
      have none : (p.repeated 0) = ⟨[], 0⟩ := by
        simp [repeated, copies, Event.sort]
      rw [none, times, List.replicate_zero, line, balanced, perform_rest,
        Context.scale_of_pos moving, Amount.val_zero, zero_div]
      rfl
  | succ n ih =>
      rw [perform_times_succ builtIn m moving, performed, ih, ok_bind, ok_bind, ← lasted,
        repeated_succ n order]
      rfl

theorem times?_of_le [Limits] {m : Music} {n : Nat} (storable : n ≤ Limits.mostParts) :
    m.times? (.int n) = .ok (m.times n) := by
  rw [times?, if_pos (Int.natCast_nonneg n), partCount_of_le storable]
  rfl

/-- Music is repeated as often as a list can have copies of it.  The repetition is performed as the
music itself over and over, in order, later by its duration every time, and lasts as often as long.
The public entry tells the duration of the whole, if it can be written. -/
theorem perform_times [Limits] (builtIn : players.BuiltIn) {m : Music} (moving : 0 < c.tempo)
    {p : Performance} (performed : m.perform players c = .ok p) (n : Nat) :
    (n ≤ Limits.mostParts → m.times? (.int n) = .ok (m.times n)) ∧
      (Limits.mostParts < n → ∃ excess, m.times? (.int n) = .error (.tooManyParts excess)) ∧
      (m.times n).perform players c = .ok (p.repeated n) ∧
      (Number.isWritable (n * p.duration) →
        (Operand.music (m.times n)).perform players c = .ok (p.repeated n)) := by
  have repeats := perform_times_eq builtIn moving performed n
  refine ⟨times?_of_le, ?_, repeats, ?_⟩
  · intro many
    cases granted : partCount n with
    | ok count =>
        obtain ⟨exact, storable⟩ := partCount_eq_ok granted
        rw [exact, Int.toNat_natCast] at storable
        exact absurd storable (Nat.not_le.2 many)
    | error excess =>
        rw [times?, if_pos (Int.natCast_nonneg n), granted]
        exact ⟨excess, rfl⟩
  · intro writable
    rw [Operand.perform, repeats, ok_bind, granted, if_pos]
    exact writable

open Usual

/-- Three rolled and pedalled chords, the pieces of which ring while the later ones begin. -/
theorem swellingChord_repeated :
    ringingPlayers.BuiltIn ∧ (0 : Rat) < 3 / 2 ∧
      ∃ p, swellingChord.perform ringingPlayers { startTime := 5 / 7, tempo := 3 / 2 } = .ok p ∧
        3 ≤ Limits.mostParts ∧ swellingChord.times? (.int 3) = .ok (swellingChord.times 3) ∧
        Number.isWritable ((3 : Nat) * p.duration) ∧
        (Operand.music (swellingChord.times 3)).perform ringingPlayers
          { startTime := 5 / 7, tempo := 3 / 2 } = .ok (p.repeated 3) := by
  have moving : (0 : Rat) < 3 / 2 := by decide +kernel
  obtain ⟨p, performed⟩ := exists_of_isOk (show
    (swellingChord.perform ringingPlayers { startTime := 5 / 7, tempo := 3 / 2 }).isOk = true by
      decide +kernel)
  have written : swellingChord.duration.val = 3 / 4 := by decide +kernel
  have writable : Number.isWritable ((3 : Nat) * p.duration) := by
    rw [duration_of_perform moving performed, written]
    decide +kernel
  obtain ⟨possible, -, -, told⟩ := perform_times ringingPlayers_builtIn moving performed 3
  have few : 3 ≤ Limits.mostParts := by decide
  exact ⟨ringingPlayers_builtIn, moving, p, performed, few, possible few, writable, told writable⟩

/-- Silence of no length can be performed, but not be repeated more often than can be counted. -/
theorem uncountable_silence :
    (Operand.music (rest 0)).perform ringingPlayers {} = .ok ⟨[], 0⟩ ∧
      (rest 0).times? (.int 100000000000000000000) = .error (.tooManyParts .uncountable) := by
  refine ⟨?_, rfl⟩
  apply eq_ok_of_toOption
  decide +kernel

end Music

end MusicAlgebra
