/-!
# Decimal digits of all scripts

Every script that has decimal digits writes them as ten consecutive characters, from zero to nine.
The table therefore lists only the zeros, and `digit?` reads any digit by its distance from one of
them.
-/

namespace MusicAlgebra.Text

/-- The digit zero of each script, by code point. -/
def zeroDigits : List Nat :=
  [
   48, 1632, 1776, 1984, 2406, 2534, 2662, 2790, 2918, 3046, 3174, 3302, 3430, 3558, 3664,
   3792, 3872, 4160, 4240, 6112, 6160, 6470, 6608, 6784, 6800, 6992, 7088, 7232, 7248, 42528,
   43216, 43264, 43472, 43504, 43600, 44016, 65296, 66720, 68912, 69734, 69872, 69942, 70096,
   70384, 70736, 70864, 71248, 71360, 71472, 71904, 72016, 72784, 73040, 73120, 92768, 92864,
   93008, 120782, 120792, 120802, 120812, 120822, 123200, 123632, 125264, 130032]

/-- The value of a decimal digit of any script. -/
def digit? (c : Char) : Option Nat :=
  (zeroDigits.find? fun first => first ≤ c.toNat && c.toNat < first + 10).map (c.toNat - ·)

/-- The digits that every text of this library writes are the ASCII ones. -/
example : digit? '7' = some 7 := by decide

/-- A digit of another script counts with the value it has there. -/
example : digit? '٣' = some 3 := by decide

theorem digit?_lt {c : Char} {value : Nat} (found : digit? c = some value) : value < 10 := by
  unfold digit? at found
  obtain ⟨first, isFirst, rfl⟩ := Option.map_eq_some_iff.1 found
  have close := List.find?_some isFirst
  simp only [Bool.and_eq_true, decide_eq_true_eq] at close
  omega

end MusicAlgebra.Text
