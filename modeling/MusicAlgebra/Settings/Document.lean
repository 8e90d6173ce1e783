import MusicAlgebra.Keyed
import MusicAlgebra.Settings.Token
import MusicAlgebra.Settings.Word

/-!
# Documents

A settings file holds one document, which is a tree of lists and mappings over scalars.  Collections
are written between brackets or laid out in lines, and what is left out is an empty word.  The tree
is built first; only then do its bare words become numbers, truth values or null.
-/

namespace MusicAlgebra.Document

/-- A document before its words are looked at. -/
inductive Node where
  | scalar (text : String) (bare : Bool)
  | list (items : List Node)
  | mapping (entries : List (Node × Node))
  deriving Inhabited

/-- The node that stands for what is left out. -/
def Node.missing : Node := .scalar "" true

/-! ## Trees -/

/-- A reader that takes tokens from the front. -/
abbrev Reader := StateT (List Token) (Except Fault)

namespace Reader

/-- The tokens mean nothing in this order. -/
def misplaced {α : Type} : Reader α := throw .misplacedToken

/-- The next token, which is left in its place.  Where the text cannot be cut into tokens, that is
why nothing follows. -/
def next : Reader Token := do
  match ← get with
  | [] => misplaced
  | .broken fault :: _ => throw fault
  | token :: _ => return token

/-- Leave the next token behind. -/
def skip : Reader Unit := modify (·.drop 1)

/-- A node, which is missing where one of some tokens stands in its place. -/
def unless? (stops : List Token) (node : Reader Node) : Reader Node := do
  if (← next) ∈ stops then return .missing else node

/-- The value of an entry after its colon; without a colon it is missing. -/
def afterColon (stops : List Token) (node : Reader Node) : Reader Node := do
  match ← next with
  | .colon =>
    skip
    unless? stops node
  | _ => return .missing

/-- Skip the comma that every part of a collection but the first one has before it. -/
def skipComma (first : Bool) : Reader Unit := do
  match first, ← next with
  | true, _ => return ()
  | false, .comma => skip
  | false, _ => misplaced

mutual

/-- A node.  Outside brackets it may be laid out in lines, and below a key the dashes of its items
need not be indented. -/
def node (block loose : Bool) : Nat → Reader Node
  | 0 => misplaced
  | fuel + 1 => do
    match block, loose, ← next with
    | _, _, .scalar text bare =>
      skip
      return .scalar text bare
    | _, _, .openList =>
      skip
      return .list (← flowItems true fuel)
    | _, _, .openMapping =>
      skip
      return .mapping (← flowEntries true fuel)
    | true, _, .listStart =>
      skip
      return .list (← items fuel)
    | true, _, .mappingStart =>
      skip
      return .mapping (← entries fuel)
    | _, true, .dash => return .list (← looseItems fuel)
    | _, _, _ => misplaced

/-- The items of an indented list, up to its end. -/
def items : Nat → Reader (List Node)
  | 0 => misplaced
  | fuel + 1 => do
    match ← next with
    | .dash =>
      skip
      let item ← unless? [.dash, .blockEnd] (node true false fuel)
      return item :: (← items fuel)
    | .blockEnd =>
      skip
      return []
    | _ => misplaced

/-- The items of a list that is not indented further than the key before it. -/
def looseItems : Nat → Reader (List Node)
  | 0 => misplaced
  | fuel + 1 => do
    match ← next with
    | .dash =>
      skip
      let item ← unless? [.dash, .key, .colon, .blockEnd] (node true false fuel)
      return item :: (← looseItems fuel)
    | _ => return []

/-- The entries of a mapping that is laid out in lines, up to its end. -/
def entries : Nat → Reader (List (Node × Node))
  | 0 => misplaced
  | fuel + 1 => do
    match ← next with
    | .key =>
      skip
      let stops := [.key, .colon, .blockEnd]
      let key ← unless? stops (node true true fuel)
      let value ← afterColon stops (node true true fuel)
      return (key, value) :: (← entries fuel)
    | .blockEnd =>
      skip
      return []
    | _ => misplaced

/-- The items of a list between brackets, up to the closing one.  A single entry may stand for a
mapping of its own. -/
def flowItems (first : Bool) : Nat → Reader (List Node)
  | 0 => misplaced
  | fuel + 1 => do
    if (← next) ≠ .closeList then skipComma first
    match ← next with
    | .closeList =>
      skip
      return []
    | .key =>
      skip
      let key ← unless? [.colon, .comma, .closeList] (node false false fuel)
      let value ← afterColon [.comma, .closeList] (node false false fuel)
      return .mapping [(key, value)] :: (← flowItems false fuel)
    | _ =>
      let item ← node false false fuel
      return item :: (← flowItems false fuel)

/-- The entries of a mapping between braces, up to the closing one.  A key may lack a value. -/
def flowEntries (first : Bool) : Nat → Reader (List (Node × Node))
  | 0 => misplaced
  | fuel + 1 => do
    if (← next) ≠ .closeMapping then skipComma first
    match ← next with
    | .closeMapping =>
      skip
      return []
    | .key =>
      skip
      let key ← unless? [.colon, .comma, .closeMapping] (node false false fuel)
      let value ← afterColon [.comma, .closeMapping] (node false false fuel)
      return (key, value) :: (← flowEntries false fuel)
    | _ =>
      let key ← node false false fuel
      return (key, .missing) :: (← flowEntries false fuel)

end

/-- Make sure that nothing but the lines that end a document follows. -/
def finish : Reader Unit := do
  modify (·.dropWhile (· = .documentEnd))
  match ← next with
  | .finish => return ()
  | .documentStart => throw .severalDocuments
  | _ => misplaced

/-- The one document that tokens make up; an empty one is a missing node. -/
def document : Reader Node := do
  let node := node true false (2 * (← get).length + 2)
  match ← next with
  | .finish => return .missing
  | .documentStart =>
    skip
    let root ← unless? [.documentStart, .documentEnd, .finish] node
    finish
    return root
  | _ =>
    let root ← node
    finish
    return root

end Reader

/-! ## Values -/

/-- The bare words that mean something as keys only. -/
def keyWords : List String := ["=", "<<"]

/-- The value of a bare word. -/
def valueOfWord [Limits] (word : String) : Except Fault Datum :=
  if keyWords.contains word then .error .noValue
  else if isBaseOnly word.toList then .error .badNumber
  else
    match wordValue word with
    | .int n => if Number.isWritable n then .ok (.int n) else .error .badNumber
    | value => .ok value

/-- A key, which is a scalar and known by its text. -/
def keyOf [Limits] : Node → Except Fault String
  | .scalar text bare =>
    if bare && !keyWords.contains text then (valueOfWord text).map fun _ => text else .ok text
  | _ => .error .noValue

mutual

/-- The value of a node. -/
def Node.value [Limits] : Node → Except Fault Datum
  | .scalar text bare => if bare then valueOfWord text else .ok (.text text)
  | .list items => (valuesOf items).map .list
  | .mapping entries => (entriesOf [] entries).map .mapping

/-- The values of items. -/
def valuesOf [Limits] : List Node → Except Fault (List Datum)
  | [] => .ok []
  | item :: items => do
    let value ← item.value
    return value :: (← valuesOf items)

/-- The values of entries, after those of others.  The last value of a key counts. -/
def entriesOf [Limits] (others : List (String × Datum)) :
    List (Node × Node) → Except Fault (List (String × Datum))
  | [] => .ok others
  | (key, value) :: entries => do
    let name ← keyOf key
    entriesOf (Keyed.put name (← value.value) others) entries

end

/-! ## Settings files -/

/-- Every way of ending a line as one. -/
def unifyLines : List Char → List Char
  | '\r' :: '\n' :: rest => '\n' :: unifyLines rest
  | c :: rest => (if c = '\r' then '\n' else c) :: unifyLines rest
  | [] => []

/-- The code points that a settings file may hold. -/
def isAllowed (n : Nat) : Bool :=
  n == 9 || n == 10 || n == 13 || (32 ≤ n && n ≤ 126) || n == 133 || (160 ≤ n && n < 55296) ||
    (57344 ≤ n && n ≤ 65533) || 65536 ≤ n

/-- Characters without the one at their beginning that may tell how they are encoded. -/
def withoutEncoding : List Char → List Char
  | '\ufeff' :: rest => rest
  | s => s

/-- The value that a settings file holds; an empty one holds nothing. -/
def read [Limits] (text : String) : Except Fault Datum := do
  let codes := Text.codes text.toList
  if codes.all isAllowed then
    (← Reader.document.run' (tokensOf (withoutEncoding (unifyLines (codes.map Char.ofNat))))).value
  else .error .forbiddenCharacter

open Usual

example : (read "a: 1\nb:\n  - x").isOk = true := by decide +kernel

/-- The colon of a key stands on the line on which the key begins. -/
example : (read "[\"a\"\n: 1]").toOption.isNone = true := by decide +kernel

end MusicAlgebra.Document
