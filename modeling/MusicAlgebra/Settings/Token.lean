import MusicAlgebra.Settings.Scalar

/-!
# Tokens of a settings file

A settings file is cut into tokens from left to right.  Outside brackets, indentation opens and
closes collections.  Whether a token begins a key is known only when the colon after it is reached,
which has to be on the same line and not far off; until then the tokens from there on are held back.
So when something is found that is no token, the tokens held back are lost.
-/

namespace MusicAlgebra.Document

/-- A part of a text that means something as a whole. -/
inductive Token where
  /-- The line that begins a document. -/
  | documentStart
  /-- The line that ends a document. -/
  | documentEnd
  /-- The beginning of a list that is laid out in lines. -/
  | listStart
  /-- The beginning of a mapping that is laid out in lines. -/
  | mappingStart
  /-- The end of a list or a mapping that is laid out in lines. -/
  | blockEnd
  | openList
  | closeList
  | openMapping
  | closeMapping
  | dash
  | comma
  /-- What follows is a key. -/
  | key
  | colon
  | scalar (text : String) (bare : Bool)
  /-- The end of the text. -/
  | finish
  /-- From here on the text cannot be cut into tokens. -/
  | broken (fault : Fault)
  deriving DecidableEq, Repr

/-- A place in a text. -/
structure Place where
  index : Nat := 0
  line : Nat := 0
  column : Nat := 0
  deriving DecidableEq, Repr

/-- The place after a character. -/
def Place.after (p : Place) (c : Char) : Place :=
  if isLineEnd c then ⟨p.index + 1, p.line + 1, 0⟩
  else ⟨p.index + 1, p.line, if c = '\ufeff' then p.column else p.column + 1⟩

/-- A token that may turn out to begin a key. -/
structure Candidate where
  /-- How many tokens come before it. -/
  position : Nat
  /-- Whether nothing but a key can stand there. -/
  required : Bool
  place : Place

/-- The beginning of a key that was found. -/
structure Splice where
  /-- How many tokens come before it. -/
  position : Nat
  /-- Whether it is the first key of a mapping that is laid out in lines. -/
  opens : Bool

/-- How far a text has been cut into tokens. -/
structure Lexer where
  rest : List Char
  place : Place := {}
  tokens : Array Token := #[]
  /-- The keys that were found, the last one first. -/
  splices : List Splice := []
  /-- The columns of the collections that are laid out in lines, the innermost one first. -/
  indents : List Nat := []
  /-- The possible key at every depth of brackets, the innermost one first. -/
  candidates : List (Option Candidate) := [none]
  /-- Whether the next token may begin a key. -/
  mayKey : Bool := true
  finished : Bool := false

/-- The farthest that the colon of a key may be from its beginning. -/
def farthestColon : Nat := 1024

namespace Lexer

/-- Whether the lexer is between brackets. -/
def inFlow (x : Lexer) : Bool := 1 < x.candidates.length

/-- Go on to a later part of the text. -/
def moveTo (x : Lexer) (rest : List Char) : Lexer :=
  let passed := x.rest.take (x.rest.length - rest.length)
  { x with rest, place := passed.foldl Place.after x.place }

def push (x : Lexer) (token : Token) : Lexer := { x with tokens := x.tokens.push token }

/-- Give up the possible key of the innermost brackets. -/
def dropCandidate (x : Lexer) : Except Fault Lexer :=
  match x.candidates with
  | some candidate :: outer =>
    if candidate.required then .error .badToken else .ok { x with candidates := none :: outer }
  | _ => .ok x

/-- Whether the colon of a possible key may still come here. -/
def inReach (place : Place) (candidate : Candidate) : Bool :=
  candidate.place.line == place.line && place.index - candidate.place.index ≤ farthestColon

/-- Give up the possible keys whose colon can no longer come. -/
def dropStale (x : Lexer) : Except Fault Lexer :=
  let isStale (candidate : Candidate) : Bool := !inReach x.place candidate
  if x.candidates.any fun candidate => candidate.any fun c => isStale c && c.required then
    .error .badToken
  else .ok { x with candidates := x.candidates.map (·.filter (inReach x.place)) }

/-- Note that the next token may begin a key, where one may stand. -/
def offerKey (x : Lexer) : Except Fault Lexer :=
  if x.mayKey then do
    let x ← x.dropCandidate
    let required := !x.inFlow && x.indents.head? == some x.place.column
    let candidate : Candidate := ⟨x.tokens.size, required, x.place⟩
    return { x with candidates := some candidate :: x.candidates.drop 1 }
  else .ok x

/-- Close the collections that are indented further than a column. -/
def unwind (column : Nat) (x : Lexer) : Lexer :=
  if x.inFlow then x
  else
    let closed := x.indents.takeWhile (column < ·)
    { x with
      indents := x.indents.drop closed.length
      tokens := x.tokens ++ closed.map fun _ => Token.blockEnd }

/-- Close all collections. -/
def unwindAll (x : Lexer) : Lexer :=
  if x.inFlow then x
  else { x with indents := [], tokens := x.tokens ++ x.indents.map fun _ => Token.blockEnd }

/-- Whether a collection that is laid out in lines begins at a column. -/
def indentsAt (x : Lexer) (column : Nat) : Bool :=
  !x.inFlow && x.indents.head?.all (· < column)

/-- Skip blanks, comments and the ends of lines.  The second part tells whether a line has ended. -/
def skipGap (comment : Bool) : List Char → List Char × Bool
  | [] => ([], false)
  | c :: rest =>
    if isLineEnd c then ((skipGap false rest).1, true)
    else if comment || c = ' ' then skipGap comment rest
    else if c = '#' then skipGap true rest
    else (c :: rest, false)

/-! ## One token -/

/-- The end of the text. -/
def finish (x : Lexer) : Except Fault Lexer := do
  let x ← x.unwindAll.dropCandidate
  return { x.push .finish with candidates := [none], finished := true }

/-- A line of three dashes or points. -/
def separator (x : Lexer) (token : Token) (rest : List Char) : Except Fault Lexer := do
  let x ← x.unwindAll.dropCandidate
  return { (x.push token).moveTo rest with mayKey := false }

/-- An opening bracket. -/
def opening (x : Lexer) (token : Token) (rest : List Char) : Except Fault Lexer := do
  let x ← x.offerKey
  return { (x.push token).moveTo rest with candidates := none :: x.candidates, mayKey := true }

/-- A closing bracket. -/
def closing (x : Lexer) (token : Token) (rest : List Char) : Except Fault Lexer := do
  let x ← x.dropCandidate
  let candidates := if x.inFlow then x.candidates.drop 1 else x.candidates
  return { (x.push token).moveTo rest with candidates, mayKey := false }

def comma (x : Lexer) (rest : List Char) : Except Fault Lexer := do
  let x ← x.dropCandidate
  return { (x.push .comma).moveTo rest with mayKey := true }

/-- Something that may begin a collection laid out in lines: an item or a marked key. -/
def lineStart (x : Lexer) (collection : Token) : Except Fault Lexer :=
  if x.inFlow then .ok x
  else if !x.mayKey then .error .badToken
  else if x.indentsAt x.place.column then
    .ok { x.push collection with indents := x.place.column :: x.indents }
  else .ok x

/-- A dash in front of an item. -/
def dash (x : Lexer) (rest : List Char) : Except Fault Lexer := do
  let x ← (← x.lineStart .listStart).dropCandidate
  return { (x.push .dash).moveTo rest with mayKey := true }

/-- A question mark in front of a key. -/
def markedKey (x : Lexer) (rest : List Char) : Except Fault Lexer := do
  let x ← (← x.lineStart .mappingStart).dropCandidate
  return { (x.push .key).moveTo rest with mayKey := !x.inFlow }

/-- The colon after a key.  What may be a key now is one. -/
def colon (x : Lexer) (rest : List Char) : Except Fault Lexer :=
  match x.candidates with
  | some candidate :: outer =>
    let column := candidate.place.column
    let opens := x.indentsAt column
    .ok { (x.push .colon).moveTo rest with
      candidates := none :: outer
      splices := ⟨candidate.position, opens⟩ :: x.splices
      indents := if opens then column :: x.indents else x.indents
      mayKey := false }
  | _ => do
    let x ← x.lineStart .mappingStart
    return { (x.push .colon).moveTo rest with mayKey := !x.inFlow }

/-- A text in quotes. -/
def quoted (x : Lexer) (quote : Char) (rest : List Char) : Except Fault Lexer := do
  let x ← x.offerKey
  let (text, rest) ← readQuoted quote (rest.length + 1) rest
  return { (x.push (.scalar (String.ofList text) false)).moveTo rest with mayKey := false }

/-- A bare word, which outside brackets may go on below where it is indented enough. -/
def bare (x : Lexer) : Except Fault Lexer := do
  let x ← x.offerKey
  let indent := (x.indents.head?.map (· + 1)).getD 0
  let run := readWord x.inFlow indent (x.rest.length + 1) x.rest
  let token := Token.scalar (Text.ofCharacters run.word) true
  return { (x.push token).moveTo run.rest with mayKey := run.endedLine }

/-- The token that the text begins with. -/
def token (x : Lexer) : Except Fault Lexer :=
  match x.rest with
  | [] => x.finish
  | c :: rest =>
    if x.place.column = 0 && atSeparator x.rest then
      x.separator (if c = '-' then .documentStart else .documentEnd) (x.rest.drop 3)
    else if c = '-' ∧ atBlank rest then x.dash rest
    else if c = '?' ∧ (x.inFlow ∨ atBlank rest) then x.markedKey rest
    else if c = ':' ∧ (x.inFlow ∨ atBlank rest) then x.colon rest
    else
      match c with
      | '[' => x.opening .openList rest
      | '\x7b' => x.opening .openMapping rest
      | ']' => x.closing .closeList rest
      | '\x7d' => x.closing .closeMapping rest
      | ',' => x.comma rest
      | '\'' => x.quoted c rest
      | '"' => x.quoted c rest
      | _ => if beginsWord x.inFlow x.rest then x.bare else .error .badToken

/-- Skip to the next token and take it. -/
def step (x : Lexer) : Except Fault Lexer := do
  let (rest, endedLine) := skipGap false x.rest
  let x := x.moveTo rest
  let x := if endedLine && !x.inFlow then { x with mayKey := true } else x
  let x ← x.dropStale
  (← (x.unwind x.place.column).token).dropStale

/-! ## All tokens -/

/-- How many tokens are not held back. -/
def settled (x : Lexer) : Nat :=
  x.candidates.foldl (fun least candidate => (candidate.map (·.position)).getD least) x.tokens.size

/-- The first tokens, each key after its announcement. -/
def deliver (x : Lexer) (count : Nat) : List Token :=
  (List.range count).flatMap fun position =>
    let announced := match x.splices.find? (·.position == position) with
      | some splice => if splice.opens then [.mappingStart, .key] else [.key]
      | none => []
    announced ++ (x.tokens[position]?).toList

/-- The tokens of a text, up to what is none. -/
def run : Nat → Lexer → List Token
  | 0, _ => [.broken .badToken]
  | fuel + 1, x =>
    match x.step with
    | .ok next => if next.finished then next.deliver next.tokens.size else run fuel next
    | .error fault => x.deliver x.settled ++ [.broken fault]

end Lexer

/-- The tokens of a text, up to what is none. -/
def tokensOf (s : List Char) : List Token := Lexer.run (s.length + 2) { rest := s }

end MusicAlgebra.Document
