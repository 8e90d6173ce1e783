import MusicAlgebra.Score.Amount

/-!
# Splitting a length into pieces

Trills split a length, either into a number of equal pieces or into pieces of a given length with
a shorter one at the end.  Either way the pieces add up to the length.  The checked functions refuse
to make more pieces than a list may have.
-/

namespace MusicAlgebra

/-- A number of equal pieces of a length. -/
def evenPieces (total : Rat) (count : Nat) : List Rat := List.replicate count (total / count)

/-- Pieces of a given length, as many as fit, and what remains as a last one. -/
def piecesOfLength (total length : Rat) : List Rat :=
  let whole := (total / length).floor
  let remainder := total - whole * length
  List.replicate whole.toNat length ++ if remainder = 0 then [] else [remainder]

/-- Equal pieces by their number, none if it is negative. -/
def evenPieces? [Limits] (total : Rat) (count : Int) : Except Excess (List Rat) :=
  (partCount count).map fun count => evenPieces total count

/-- Pieces by their length. -/
def piecesOfLength? [Limits] (total length : Rat) : Except Excess (List Rat) :=
  (partCount (total / length).floor).map fun _ => piecesOfLength total length

end MusicAlgebra
