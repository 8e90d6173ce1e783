import MusicAlgebra.Datum
import MusicAlgebra.Keyed
import MusicAlgebra.Number.Decimal
import MusicAlgebra.Text.Blank
import MusicAlgebra.Text.CodePoint

/-!
# Interchange texts

An interchange text holds one value: null, a truth value, a number, a text in double quotes, a list
in brackets or a mapping in braces.  A number with a point or an exponent is a `Float`, any other an
integer of any size.  Two escaped surrogates stand for the code point that they encode together.
-/

namespace MusicAlgebra.Interchange

/-! ## Texts -/

/-- The characters that a single letter stands for after a backslash. -/
def escapes : List (Char × Char) := [
  ('b', '\x08'), ('t', '\t'), ('n', '\n'), ('f', '\x0c'), ('r', '\r'), ('"', '"'), ('\\', '\\'),
  ('/', '/')]

/-- A code point in four hexadecimal digits, and what follows it. -/
def readCode? (s : List Char) : Option (List Char × List Char) := do
  let (code, rest) ← Number.readHex? 4 s
  return (← Text.keep? code, rest)

/-- A code point as two surrogates, the second one being escaped, and what follows it. -/
def readPair? (s : List Char) : Option (List Char × List Char) := do
  let (high, rest) ← Number.readHex? 4 s
  match rest with
  | '\\' :: 'u' :: rest =>
    let (low, rest) ← Number.readHex? 4 rest
    return (← Text.keep? (← Text.joined? high low), rest)
  | _ => none

/-- The rest of a text after the opening quote, and what follows the closing one. -/
def readText? : Nat → List Char → Option (List Char × List Char)
  | 0, _ => none
  | _ + 1, [] => none
  | _ + 1, '"' :: rest => some ([], rest)
  | fuel + 1, '\\' :: c :: rest => do
    let (meant, rest) ←
      if c = 'u' then (readPair? rest).or (readCode? rest)
      else (escapes.lookup c).map fun meant => ([meant], rest)
    let (text, rest) ← readText? fuel rest
    return (meant ++ text, rest)
  | fuel + 1, c :: rest => do
    let (text, rest) ← readText? fuel rest
    return (c :: text, rest)

/-! ## Words -/

/-- The value of a word without quotes. -/
def wordValue? (word : String) : Option Datum :=
  match word with
  | "null" => some .null
  | "true" => some (.bool true)
  | "false" => some (.bool false)
  | _ => do
    let (negative, rest) := Number.splitSign word.toList
    let d ← Number.DecimalWord.ofChars rest
    if d.whole.isEmpty then none
    else if d.places.isNone && d.exponent.isNone then
      let value : Int := Number.digitsValue d.whole
      some (.int (if negative then -value else value))
    else some (.float (d.toFloat negative))

/-- The characters that end a word without quotes. -/
def wordEnds : List Char := [',', ':', '[', ']', '\x7b', '\x7d', '"']

/-- Whether a word without quotes goes on with a character. -/
def isInWord (c : Char) : Bool := !Text.isBlank c && !wordEnds.contains c

/-! ## Values -/

mutual

/-- A value at the front of a text, and what follows it. -/
def readValue? : Nat → List Char → Option (Datum × List Char)
  | 0, _ => none
  | fuel + 1, s =>
    match s.dropWhile Text.isBlank with
    | '[' :: rest => do
      let (items, rest) ← readItems? fuel rest
      return (.list items, rest)
    | '\x7b' :: rest => do
      let (entries, rest) ← readEntries? fuel [] rest
      return (.mapping entries, rest)
    | '"' :: rest => do
      let (text, rest) ← readText? fuel rest
      return (.text (String.ofList text), rest)
    | rest =>
      (wordValue? (String.ofList (rest.takeWhile isInWord))).map fun value =>
        (value, rest.dropWhile isInWord)

/-- The items of a list up to its closing bracket. -/
def readItems? : Nat → List Char → Option (List Datum × List Char)
  | 0, _ => none
  | fuel + 1, s =>
    match s.dropWhile Text.isBlank with
    | ']' :: rest => some ([], rest)
    | s => do
      let (item, rest) ← readValue? fuel s
      match rest.dropWhile Text.isBlank with
      | ',' :: rest =>
        let (items, rest) ← readItems? fuel rest
        return (item :: items, rest)
      | ']' :: rest => return ([item], rest)
      | _ => none

/-- The entries of a mapping up to its closing brace, after those already read.  The last value of a
key counts. -/
def readEntries? :
    Nat → List (String × Datum) → List Char → Option (List (String × Datum) × List Char)
  | 0, _, _ => none
  | fuel + 1, entries, s =>
    match s.dropWhile Text.isBlank with
    | '\x7d' :: rest => some (entries, rest)
    | '"' :: rest => do
      let (key, rest) ← readText? fuel rest
      match rest.dropWhile Text.isBlank with
      | ':' :: rest =>
        let (value, rest) ← readValue? fuel rest
        let entries := Keyed.put (String.ofList key) value entries
        match rest.dropWhile Text.isBlank with
        | ',' :: rest => readEntries? fuel entries rest
        | '\x7d' :: rest => return (entries, rest)
        | _ => none
      | _ => none
    | _ => none

end

/-- The one value that an interchange text holds. -/
def read? (text : String) : Option Datum := do
  let s := (Text.ofPlain text).toList
  let (value, rest) ← readValue? (s.length + 1) s
  if rest.all Text.isBlank then some value else none

/-- An escape of two surrogates is one character. -/
example : readText? 14 "\\ud83d\\ude00\"]".toList = some (['😀'], [']']) := by decide +kernel

end MusicAlgebra.Interchange
