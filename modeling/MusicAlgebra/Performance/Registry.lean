import MusicAlgebra.Keyed
import MusicAlgebra.Performance.Player

/-!
# Players by name

A registry holds players under names.  Registering a player under a taken name replaces the one that
was there; a look-up that finds no player names the missing one.
-/

namespace MusicAlgebra

/-- Players by name, in the order in which the names were first registered. -/
structure Registry where
  entries : List (String × Player) := []

namespace Registry

def empty : Registry := {}

/-- Register a player, under its own name unless another one is given. -/
def register (r : Registry) (player : Player) (name : Option String) : Registry :=
  ⟨Keyed.put (name.getD player.name) player r.entries⟩

/-- The player under a name. -/
def find? (r : Registry) (name : String) : Option Player := Keyed.find? name r.entries

/-- The player under an unchecked name. -/
def resolve [Limits] (r : Registry) (name : Datum) : Except PerformFailure Player :=
  if name.isNameable then
    match name with
    | .text text => ((r.find? text).map Except.ok).getD (.error (.playerNotFound name))
    | _ => .error (.told (.playerNotFound name))
  else .error (.unusableName name)

/-- Whether a player is registered under an unchecked name. -/
def contains [Limits] (r : Registry) (name : Datum) : Except PerformFailure Bool :=
  match r.resolve name with
  | .ok _ => .ok true
  | .error (.unusableName given) => .error (.unusableName given)
  | .error _ => .ok false

/-- The names in alphabetical order. -/
def names (r : Registry) : List String :=
  (r.entries.map Prod.fst).mergeSort fun first second => decide (first ≤ second)

/-- The built-in players, the staccato and the legato one with the given amounts. -/
def standardWith (fraction overlap : Rat) : Except Rejection Registry := do
  let staccato ← Style.staccatoOf fraction
  let legato ← Style.legatoOf overlap
  return [.literal, staccato, legato, .fancy].foldl
    (fun registry style => registry.register (.builtIn style) none) empty

end Registry

end MusicAlgebra
