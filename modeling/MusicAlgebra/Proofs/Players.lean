import MusicAlgebra.Performance.Registry
import MusicAlgebra.Proofs.EventOrder
import MusicAlgebra.Proofs.Outcome

/-!
# What is asked of players

Any functions make a player, so most laws of performing hold only for players of some kind.  Two
kinds occur: players that sound the events of a note in order, and the built-in ones, which are
among them.  A registry is of a kind if every player that it can hand out is.
-/

namespace MusicAlgebra

open Outcome

theorem Keyed.mem_of_find? {κ ν : Type} [DecidableEq κ] {key : κ} {value : ν}
    {entries : List (κ × ν)} (found : find? key entries = some value) :
    (key, value) ∈ entries := by
  induction entries with
  | nil => cases found
  | cons entry rest ih =>
      obtain ⟨other, present⟩ := entry
      rw [find?] at found
      split at found
      · rename_i same
        cases found
        rw [same]
        exact List.mem_cons_self
      · exact List.mem_cons_of_mem _ (ih found)

/-- Whoever a registry hands out was registered. -/
theorem Registry.exists_entry_of_resolve [Limits] {players : Registry} {name : Datum}
    {player : Player}
    (resolved : players.resolve name = .ok player) :
    ∃ text, (text, player) ∈ players.entries := by
  unfold resolve at resolved
  split at resolved
  · cases name with
    | text text =>
        dsimp only at resolved
        cases found : players.find? text with
        | none =>
            rw [found] at resolved
            cases resolved
        | some registered =>
            rw [found] at resolved
            cases resolved
            exact ⟨text, Keyed.mem_of_find? found⟩
    | _ => cases resolved
  · cases resolved

/-! ## Players that sound the events of a note in order -/

def Player.PlaysInOrder (player : Player) : Prop :=
  ∀ n c events, player.playNote n c = .ok events → Event.InOrder events

def Registry.PlaysInOrder [Limits] (players : Registry) : Prop :=
  ∀ name player, players.resolve name = .ok player → player.PlaysInOrder

theorem Registry.playsInOrder_of_entries [Limits] {players : Registry}
    (each : ∀ entry ∈ players.entries, entry.2.PlaysInOrder) : players.PlaysInOrder := by
  intro name player resolved
  obtain ⟨text, member⟩ := exists_entry_of_resolve resolved
  exact each (text, player) member

/-! ## Built-in players -/

/-- A registry of built-in players, whatever their names and amounts. -/
def Registry.BuiltIn [Limits] (players : Registry) : Prop :=
  ∀ name player, players.resolve name = .ok player → ∃ style, player = .builtIn style

theorem Registry.builtIn_of_entries [Limits] {players : Registry}
    (each : ∀ entry ∈ players.entries, ∃ style, entry.2 = .builtIn style) : players.BuiltIn := by
  intro name player resolved
  obtain ⟨text, member⟩ := exists_entry_of_resolve resolved
  exact each (text, player) member

/-- The built-in styles make one event of a note. -/
theorem Player.builtIn_playsInOrder (style : Style) : (builtIn style).PlaysInOrder := by
  intro n c events played
  obtain ⟨e, -, rfl⟩ := map_eq_ok.1 played
  exact List.pairwise_singleton _ e

theorem Registry.BuiltIn.playsInOrder [Limits] {players : Registry} (builtIn : players.BuiltIn) :
    players.PlaysInOrder := by
  intro name player resolved
  obtain ⟨style, rfl⟩ := builtIn name player resolved
  exact Player.builtIn_playsInOrder style

end MusicAlgebra
