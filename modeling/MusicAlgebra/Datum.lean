import MusicAlgebra.Keyed
import MusicAlgebra.Number.Literal
import MusicAlgebra.Number.Shortest
import MusicAlgebra.Text.Quoted

/-!
# Unchecked values

What a user hands in where a pitch, a length or a name is expected is a `Datum` until it has been
checked.  A datum can be described in a message, compared with another one, and asked whether it
counts as absent.
-/

namespace MusicAlgebra

/-- A value that nobody has checked yet. -/
inductive Datum where
  | null
  | bool (value : Bool)
  | int (value : Int)
  | float (value : Float)
  | text (value : String)
  | list (items : List Datum)
  | mapping (entries : List (String × Datum))
  deriving Inhabited, Repr

namespace Datum

mutual

/-- The text of a datum in a message: texts are quoted, lists and mappings bracketed. -/
def describe : Datum → String
  | null => "None"
  | bool true => "True"
  | bool false => "False"
  | int value => toString value
  | float value => Number.shortestText value
  | text value => Text.quoted value
  | list items => "[" ++ String.intercalate ", " (describeItems items) ++ "]"
  | mapping entries => "\x7b" ++ String.intercalate ", " (describeEntries entries) ++ "\x7d"

/-- The texts of the items of a list. -/
def describeItems : List Datum → List String
  | [] => []
  | item :: rest => item.describe :: describeItems rest

/-- The texts of the entries of a mapping. -/
def describeEntries : List (String × Datum) → List String
  | [] => []
  | (key, value) :: rest => (Text.quoted key ++ ": " ++ value.describe) :: describeEntries rest

end

mutual

/-- Whether every integer inside a datum can be written. -/
def isWritable [Limits] : Datum → Bool
  | int value => Number.isWritable value
  | list items => areWritable items
  | mapping entries => entriesAreWritable entries
  | null | bool _ | float _ | text _ => true

/-- Whether every item of a list can be written. -/
def areWritable [Limits] : List Datum → Bool
  | [] => true
  | item :: rest => item.isWritable && areWritable rest

/-- Whether every value of a mapping can be written. -/
def entriesAreWritable [Limits] : List (String × Datum) → Bool
  | [] => true
  | (_, value) :: rest => value.isWritable && entriesAreWritable rest

end

/-- The text of a datum where a name is expected: a text stands for itself. -/
def plain : Datum → String
  | text value => value
  | other => other.describe

/-- The exact number that a datum holds.  Truth values count as one and zero here, which is how
they compare with numbers. -/
def number? : Datum → Option Rat
  | bool value => some (if value then 1 else 0)
  | int value => some value
  | float value => Number.valueOf? value
  | _ => none

mutual

/-- Whether two data are equal.  Numbers are compared by value whatever their kind, and mappings
without regard to the order of their entries. -/
def agrees : Datum → Datum → Bool
  | null, null => true
  | text a, text b => a == b
  | list a, list b => agreeItems a b
  | mapping a, mapping b => a.length == b.length && agreeEntries a b
  | float a, float b => a == b
  | a, b =>
    match a.number?, b.number? with
    | some p, some q => p == q
    | _, _ => false

/-- Whether two lists agree item by item. -/
def agreeItems : List Datum → List Datum → Bool
  | [], [] => true
  | a :: as, b :: bs => a.agrees b && agreeItems as bs
  | _, _ => false

/-- Whether every entry of the first mapping is in the second. -/
def agreeEntries : List (String × Datum) → List (String × Datum) → Bool
  | [], _ => true
  | (key, value) :: rest, entries =>
    (match Keyed.find? key entries with
      | some other => value.agrees other
      | none => false) && agreeEntries rest entries

end

instance : BEq Datum := ⟨agrees⟩

/-- Whether a datum can be looked up as a name.  Lists and mappings cannot. -/
def isNameable : Datum → Bool
  | list _ => false
  | mapping _ => false
  | _ => true

/-- Whether a datum stands for nothing: null, false, a zero, or something empty. -/
def isEmpty : Datum → Bool
  | null => true
  | bool value => !value
  | int value => value == 0
  | float value => value == 0.0
  | text value => value.isEmpty
  | list items => items.isEmpty
  | mapping entries => entries.isEmpty

/-- The entry of a mapping under a key. -/
def entry? (key : String) : Datum → Option Datum
  | mapping entries => Keyed.find? key entries
  | _ => none

example : (list [float 1.5, bool true, text "q'"]).describe = "[1.5, True, \"q'\"]" := by
  decide +kernel

end Datum

end MusicAlgebra
