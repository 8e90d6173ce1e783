import MusicAlgebra.Midi.Failure
import MusicAlgebra.Midi.Notice

/-!
# The choice of an output

Among the MIDI outputs of a system one is chosen to play on: the one that is asked for, or else the
first that does not merely loop its messages back.
-/

namespace MusicAlgebra

/-- Whether a text occurs in another. -/
def occursIn (part : List Char) : List Char → Bool
  | [] => part.isEmpty
  | c :: text => part.isPrefixOf (c :: text) || occursIn part text

/-- An output that is chosen, with what the user is told about the choice. -/
structure OutputChoice where
  name : String
  notice : Option Notice := none
  deriving DecidableEq, Repr

namespace OutputChoice

/-- Loopback outputs carry this in their names. -/
def loopbackMark : String := "Midi Through"

def isLoopback (name : String) : Bool := occursIn loopbackMark.toList name.toList

/-- Choose among outputs when none is asked for. -/
def discover : List String → Except RenderFailure OutputChoice
  | [] => .error .noOutputs
  | [name] =>
    .ok ⟨name, some (.info .outputs s!"One MIDI output found - using '{name}'")⟩
  | first :: others =>
    match (first :: others).find? fun name => !isLoopback name with
    | some name =>
      .ok ⟨name, some (.info .outputs s!"Several MIDI outputs found - using '{name}'")⟩
    | none => .ok ⟨first, none⟩

/-- Choose an output, the requested one if one is requested. -/
def choose (outputs : List String) (requested : Option String) :
    Except RenderFailure OutputChoice :=
  match requested with
  | none => discover outputs
  | some name =>
    if outputs.isEmpty then .error .noOutputs
    else if name ∈ outputs then .ok ⟨name, none⟩
    else .error (.outputMissing name outputs)

end OutputChoice

end MusicAlgebra
