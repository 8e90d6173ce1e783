/-!
# Why a settings file cannot be read
-/

namespace MusicAlgebra.Document

/-- The cause for which a text is no settings file. -/
inductive Fault where
  /-- There are characters that no settings file may hold. -/
  | forbiddenCharacter
  /-- Something is no token, or a token stands where none like it can begin. -/
  | badToken
  /-- The tokens are in an order that means nothing. -/
  | misplacedToken
  | severalDocuments
  /-- A word stands for no value, or a collection is used as a key. -/
  | noValue
  /-- An integer has too many digits or none at all, or there is no code point of some number. -/
  | badNumber
  /-- The number of a code point does not fit into 31 bits. -/
  | hugeCode
  deriving DecidableEq, Repr

end MusicAlgebra.Document
