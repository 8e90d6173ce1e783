import Mathlib.Data.List.Basic
import Mathlib.Logic.Function.Basic
import MusicAlgebra.Performance.Player
import MusicAlgebra.Proofs.Outcome

/-!
# Effects on changed events

A change of every event, such as another tempo or another transposition, can be made before an
effect of a phrase or after it if it respects the little that the effect looks at.  Sorting looks at
the order of onsets, a trill at single events, a roll at which notes form a chord and at the order of
their pitches, an accent at volumes alone.  This module states what is asked of a change for each of
these effects.
-/

namespace MusicAlgebra

open Outcome

/-- What is distinct stays distinct under an injective map. -/
theorem eraseDups_map {α β : Type} [BEq α] [LawfulBEq α] [BEq β] [LawfulBEq β] {f : α → β}
    (injective : Function.Injective f) (items : List α) :
    (items.map f).eraseDups = items.eraseDups.map f := by
  match items with
  | [] => rfl
  | item :: others =>
      have remaining : (others.map f).filter (fun other => !other == f item) =
          (others.filter fun other => !other == item).map f := by
        rw [List.filter_map]
        congr 2
        funext other
        exact congrArg not (beq_eq_beq.2 injective.eq_iff)
      rw [List.map_cons, List.eraseDups_cons, List.eraseDups_cons, remaining,
        eraseDups_map injective, List.map_cons]
termination_by items.length
decreasing_by exact Nat.lt_succ_of_le (List.length_filter_le _ _)

/-- What is distinct has no duplicates. -/
theorem nodup_eraseDups {α : Type} [BEq α] [LawfulBEq α] (items : List α) :
    items.eraseDups.Nodup := by
  match items with
  | [] => exact .nil
  | item :: others =>
      rw [List.eraseDups_cons]
      refine List.nodup_cons.2 ⟨?_, nodup_eraseDups _⟩
      simp [List.mem_eraseDups]
termination_by items.length
decreasing_by exact Nat.lt_succ_of_le (List.length_filter_le _ _)

namespace Event

variable {change : Event → Event}

theorem sort_map
    (kept : ∀ first second, (change first).noLater (change second) = first.noLater second)
    (events : List Event) : sort (events.map change) = (sort events).map change :=
  (List.map_mergeSort fun first _ second _ => (kept first second).symm).symm

theorem trillAll_map [Limits] {key : Key} {speed : TrillSpeed}
    (each : ∀ e, (change e).trill key speed = List.map change <$> e.trill key speed)
    (events : List Event) :
    trillAll (events.map change) key speed = List.map change <$> trillAll events key speed := by
  have traversed : (events.map change).mapM (fun e => trill e key speed) =
      List.map (List.map change) <$> events.mapM fun e => trill e key speed := by
    rw [List.mapM_map]
    exact mapM_map_of_step each events
  rw [trillAll, trillAll, traversed]
  cases events.mapM fun e => trill e key speed with
  | error excess => rfl
  | ok trilled => exact congrArg Except.ok List.map_flatten.symm

/-- A change that neither splits nor joins chords is made chord by chord. -/
theorem chords_map {rekey : Rat × Rat → Rat × Rat} (injective : Function.Injective rekey)
    (keyed : ∀ e, (change e).chordKey = rekey e.chordKey) (events : List Event) :
    chords (events.map change) = (chords events).map (List.map change) := by
  have keys : (events.map change).map chordKey = (events.map chordKey).map rekey := by
    simp only [List.map_map, Function.comp_def, keyed]
  rw [chords, chords, keys, eraseDups_map injective, List.map_map, List.map_map]
  apply List.map_congr_left
  intro key member
  rw [Function.comp_apply, Function.comp_apply, List.filter_map]
  congr 1
  apply List.filter_congr
  intro e member
  rw [Function.comp_apply, keyed]
  exact beq_eq_beq.2 injective.eq_iff

theorem rollChord_map {direction : Direction}
    (ordered : ∀ first second,
      direction.inOrder (change first) (change second) = direction.inOrder first second)
    (sliced : ∀ e number chord,
      slices (change e).onset ((change e).duration / number) (chord.map change) =
        (slices e.onset (e.duration / number) chord).map change)
    (chord : List Event) :
    rollChord direction (chord.map change) = (rollChord direction chord).map change := by
  match chord with
  | [] => rfl
  | [e] => rfl
  | first :: second :: others =>
      have rolled : ((first :: second :: others).map change).mergeSort direction.inOrder =
          ((first :: second :: others).mergeSort direction.inOrder).map change :=
        (List.map_mergeSort fun one _ other _ => (ordered one other).symm).symm
      simp only [List.map_cons] at rolled
      simp only [rollChord, List.map_cons, List.length_cons, List.length_map, rolled, sliced]
      split
      · rfl
      · rfl

end Event

namespace Style

variable {change : Event → Event}

/-- Volumes are computed from what the change keeps, and set without regard to it. -/
theorem reweigh_map {weight weight' : Event → Rat} (weighed : ∀ e, weight' (change e) = weight e)
    (coloured : ∀ e volume, change { e with volume } = { change e with volume })
    (events : List Event) :
    reweigh weight' (events.map change) = (reweigh weight events).map change := by
  simp only [reweigh, List.map_map]
  apply List.map_congr_left
  intro e member
  rw [Function.comp_apply, Function.comp_apply, weighed]
  exact (coloured e _).symm

theorem rescale_map {fraction : Rat}
    (scaled : ∀ e, change { e with duration := e.duration * fraction } =
      { change e with duration := (change e).duration * fraction })
    (events : List Event) :
    rescale fraction (events.map change) = (rescale fraction events).map change := by
  simp only [rescale, List.map_map]
  apply List.map_congr_left
  intro e member
  exact (scaled e).symm

theorem interpretCommon_map (loud : ∀ e, (change e).volume = e.volume)
    (coloured : ∀ e volume, change { e with volume } = { change e with volume })
    (scaled : ∀ fraction e, change { e with duration := e.duration * fraction } =
      { change e with duration := (change e).duration * fraction })
    (events : List Event) (shaping : Attribute) :
    interpretCommon (events.map change) shaping =
      (interpretCommon events shaping).map change := by
  cases shaping with
  | accent factor =>
      apply reweigh_map _ coloured
      intro e
      rw [loud]
  | staccato fraction | legato fraction => exact rescale_map (scaled fraction.val) events
  | _ => rfl

end Style

end MusicAlgebra
