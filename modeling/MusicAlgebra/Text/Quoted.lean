import MusicAlgebra.Text.CodePoint
import MusicAlgebra.Text.Printable

/-!
# Quoted texts

Messages show the text they complain about between quotes.  Single quotes are used unless the text
holds one and holds no double quote.  Inside, the quote in use and the backslash are escaped, as is
every code point that cannot be printed.  A text that is shown without quotes has its surrogates
escaped, and nothing else.
-/

namespace MusicAlgebra.Text

/-- The last `width` hexadecimal digits of a number, most significant first. -/
def hexDigits (width n : Nat) : List Char :=
  (List.range width).reverse.map fun place => Nat.digitChar (n / Nat.pow 16 place % 16)

/-- A surrogate as it is shown. -/
def escapeSurrogate (code : Nat) : List Char := '\\' :: 'u' :: hexDigits 4 code

/-- One code point as it stands between two quotes. -/
def escape (quote : Char) (code : Nat) : List Char :=
  if isSurrogate code then escapeSurrogate code
  else
    let c := Char.ofNat code
    if c = quote ∨ c = '\\' then ['\\', c]
    else if c = '\n' then ['\\', 'n']
    else if c = '\t' then ['\\', 't']
    else if c = '\r' then ['\\', 'r']
    else if isPrintable c then [c]
    else if code < 256 then '\\' :: 'x' :: hexDigits 2 code
    else if code < 65536 then '\\' :: 'u' :: hexDigits 4 code
    else '\\' :: 'U' :: hexDigits 8 code

/-- The quote that surrounds a text: the double one only where it saves an escape. -/
def quoteFor (s : List Char) : Char :=
  if s.contains '\'' && !s.contains '"' then '"' else '\''

/-- A text between quotes. -/
def quoted (s : String) : String :=
  let quote := quoteFor s.toList
  String.ofList (quote :: (codes s.toList).flatMap (escape quote) ++ [quote])

/-- A text as it is shown without quotes: only its surrogates are escaped. -/
def shown (s : String) : String :=
  if s.contains mark then
    String.ofList ((codes s.toList).flatMap fun code =>
      if isSurrogate code then escapeSurrogate code else [Char.ofNat code])
  else s

example : quoted "it's" = "\"it's\"" := by decide +kernel

example : quoted "a\tb\\" = "'a\\tb\\\\'" := by decide +kernel

example : quoted "\u200b" = "'\\u200b'" := by decide +kernel

example : (keep? 0xd83c).map (fun s => quoted (String.ofList s)) = some "'\\ud83c'" := by
  decide +kernel

end MusicAlgebra.Text
