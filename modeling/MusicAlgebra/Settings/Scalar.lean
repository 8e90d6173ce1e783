import MusicAlgebra.Number.Base
import MusicAlgebra.Settings.Fault
import MusicAlgebra.Text.CodePoint

/-!
# Scalars of a settings file

A scalar is a bare word or a text in quotes.  Either may run over several lines, which are then
folded: the blanks around the end of a line are dropped, an ordinary end of a line becomes a space,
and empty lines stand for themselves.  What is read here are characters; the texts that come out of
them keep code points.
-/

namespace MusicAlgebra.Document

/-! ## Lines -/

/-- What the end of a line is read as, none for a character that ends no line. -/
def lineEnd? (c : Char) : Option Char :=
  if c = '\n' ∨ c = '\u0085' then some '\n'
  else if c = '\u2028' ∨ c = '\u2029' then some c
  else none

/-- Whether a character ends a line. -/
def isLineEnd (c : Char) : Bool := (lineEnd? c).isSome

/-- Whether a text is at its end, at a blank or at the end of a line. -/
def atBlank : List Char → Bool
  | [] => true
  | c :: _ => c == ' ' || c == '\t' || isLineEnd c

/-- Whether the line that begins here ends a document or begins another one. -/
def atSeparator : List Char → Bool
  | '-' :: '-' :: '-' :: rest => atBlank rest
  | '.' :: '.' :: '.' :: rest => atBlank rest
  | _ => false

/-- What the end of a line and the ends of the empty lines after it are read as. -/
def folded (lineEnd : Char) (empty : List Char) : List Char :=
  if lineEnd ≠ '\n' then lineEnd :: empty else if empty.isEmpty then [' '] else empty

/-! ## Texts in quotes -/

/-- The ends of the empty lines at the front of a text, and what follows them and the blanks among
them.  No line may look like a separator. -/
def readEmptyLines (atStart : Bool) : List Char → Except Fault (List Char × List Char)
  | [] => .ok ([], [])
  | c :: rest =>
    if atStart && atSeparator (c :: rest) then .error .badToken
    else if c = ' ' ∨ c = '\t' then readEmptyLines false rest
    else
      match lineEnd? c with
      | some lineEnd => do
        let (ends, rest) ← readEmptyLines true rest
        return (lineEnd :: ends, rest)
      | none => .ok ([], c :: rest)

/-- A raw character of a text in quotes, or the end of a line with the blanks around it, and what
follows. -/
def readRaw (c : Char) (rest : List Char) : Except Fault (List Char × List Char) :=
  match (c :: rest).dropWhile fun c => c = ' ' ∨ c = '\t' with
  | [] => .ok (Text.keepCharacter c, rest)
  | next :: below =>
    match lineEnd? next with
    | some lineEnd => do
      let (empty, rest) ← readEmptyLines true below
      return (folded lineEnd empty, rest)
    | none => .ok (Text.keepCharacter c, rest)

/-- The characters that a single letter stands for after a backslash. -/
def escapes : List (Char × Char) := [
  ('0', '\x00'), ('a', '\x07'), ('b', '\x08'), ('t', '\t'), ('\t', '\t'), ('n', '\n'),
  ('v', '\x0b'), ('f', '\x0c'), ('r', '\r'), ('e', '\x1b'), (' ', ' '), ('"', '"'), ('\\', '\\'),
  ('/', '/'), ('N', '\u0085'), ('_', '\u00a0'), ('L', '\u2028'), ('P', '\u2029')]

/-- How many hexadecimal digits a letter announces after a backslash. -/
def codeWidth? : Char → Option Nat
  | 'x' => some 2
  | 'u' => some 4
  | 'U' => some 8
  | _ => none

/-- What an escape stands for, after its backslash, and what follows it.  An escaped end of a line
stands for nothing. -/
def readEscape : List Char → Except Fault (List Char × List Char)
  | [] => .error .badToken
  | c :: rest =>
    match escapes.lookup c, codeWidth? c with
    | some meant, _ => .ok ([meant], rest)
    | none, some width =>
      match Number.readHex? width rest with
      | none => .error .badToken
      | some (code, rest) =>
        match Text.keep? code with
        | some kept => .ok (kept, rest)
        | none => .error (if code < 2147483648 then .badNumber else .hugeCode)
    | none, none => if isLineEnd c then readEmptyLines true rest else .error .badToken

/-- The rest of a text in quotes after the opening one, and what follows the closing one.  Between
single quotes nothing is escaped but the quote itself, which is written twice. -/
def readQuoted (quote : Char) : Nat → List Char → Except Fault (List Char × List Char)
  | 0, _ => .error .badToken
  | _ + 1, [] => .error .badToken
  | fuel + 1, c :: rest =>
    if c = quote then
      match quote, rest with
      | '\'', '\'' :: rest => do
        let (text, rest) ← readQuoted quote fuel rest
        return ('\'' :: text, rest)
      | _, _ => .ok ([], rest)
    else do
      let (meant, rest) ← if quote = '"' ∧ c = '\\' then readEscape rest else readRaw c rest
      let (text, rest) ← readQuoted quote fuel rest
      return (meant ++ text, rest)

/-! ## Bare words -/

/-- The characters that end a bare word between brackets. -/
def flowMarks : List Char := [',', '?', '[', ']', '\x7b', '\x7d']

/-- Whether a bare word ends in front of a text: at a blank, at a colon that a blank follows, and
between brackets at a bracket or a comma too. -/
def endsWord (flow : Bool) (s : List Char) : Bool :=
  match s with
  | ':' :: rest => atBlank rest || (flow && rest.head?.any fun c => c ≠ '?' && flowMarks.contains c)
  | c :: _ => atBlank s || (flow && flowMarks.contains c)
  | [] => true

/-- A bare word without blanks at the front of a text, and what follows it. -/
def spanWord (flow : Bool) : List Char → List Char × List Char
  | [] => ([], [])
  | c :: rest =>
    if endsWord flow (c :: rest) then ([], c :: rest)
    else
      let (word, rest) := spanWord flow rest
      (c :: word, rest)

/-- The characters that no bare word begins with. -/
def indicators : List Char :=
  ['-', '?', ':', ',', '[', ']', '\x7b', '\x7d', '#', '&', '*', '!', '|', '>', '\'', '"', '%', '@',
    '\x60']

/-- Whether a bare word can begin here: a dash, and outside brackets a question mark or a colon,
only in front of something else than a blank. -/
def beginsWord (flow : Bool) (s : List Char) : Bool :=
  match s with
  | [] => false
  | c :: rest =>
    if c = '-' ∨ (!flow ∧ (c = '?' ∨ c = ':')) then !atBlank rest
    else !atBlank s && !indicators.contains c

/-- What separates two parts of a bare word. -/
structure Gap where
  /-- What it is read as; nothing if the word does not go on after it. -/
  meant : List Char
  rest : List Char
  /-- The column of what follows, if that is on another line. -/
  column : Option Nat

/-- The ends of the empty lines at the front of a line that begins here, the column of what follows
them and what that is; no ends if one of the lines is a separator. -/
def readIndented (column : Nat) : List Char → Option (List Char) × Nat × List Char
  | [] => (some [], column, [])
  | c :: rest =>
    if c = ' ' then readIndented (column + 1) rest
    else
      match lineEnd? c with
      | some lineEnd =>
        if atSeparator rest then (none, 0, rest)
        else
          let (ends, column, rest) := readIndented 0 rest
          (ends.map (lineEnd :: ·), column, rest)
      | none => (some [], column, c :: rest)

/-- The gap at the front of a text. -/
def readGap (s : List Char) : Gap :=
  let spaces := s.takeWhile (· = ' ')
  match s.dropWhile (· = ' ') with
  | [] => ⟨spaces, [], none⟩
  | c :: rest =>
    match lineEnd? c with
    | none => ⟨spaces, c :: rest, none⟩
    | some lineEnd =>
      if atSeparator rest then ⟨[], rest, some 0⟩
      else
        let (ends, column, rest) := readIndented 0 rest
        ⟨(ends.map (folded lineEnd)).getD [], rest, some column⟩

/-- A bare word: its characters, what follows it and the blanks after it, and whether a line has
ended among those. -/
structure WordRun where
  word : List Char
  rest : List Char
  endedLine : Bool

/-- Whether a bare word may go on after a gap.  Outside brackets it has to be indented, and nowhere
does a comment belong to it. -/
def Gap.joins (gap : Gap) (flow : Bool) (indent : Nat) : Bool :=
  !gap.meant.isEmpty && gap.rest.head? != some '#' && !endsWord flow gap.rest &&
    (flow || gap.column.all (indent ≤ ·))

/-- The bare word at the front of a text. -/
def readWord (flow : Bool) (indent : Nat) : Nat → List Char → WordRun
  | 0, s => ⟨[], s, false⟩
  | fuel + 1, s =>
    let (part, rest) := spanWord flow s
    let gap := readGap rest
    if gap.joins flow indent then
      let more := readWord flow indent fuel gap.rest
      ⟨part ++ gap.meant ++ more.word, more.rest, more.endedLine⟩
    else ⟨part, gap.rest, gap.column.isSome⟩

end MusicAlgebra.Document
