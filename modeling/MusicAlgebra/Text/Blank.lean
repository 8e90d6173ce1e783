/-!
# Blank characters

Texts that a user types may be surrounded by blanks.  A character is blank when Unicode counts it
as white space, and the four information separators are blank too.  Trimming removes blanks from
the ends only; what it leaves begins and ends with something else.
-/

namespace MusicAlgebra.Text

/-- Whether a character counts as white space. -/
def isBlank (c : Char) : Bool :=
  let n := c.toNat
  (9 ≤ n && n ≤ 13) || (28 ≤ n && n ≤ 32) || n == 133 || n == 160 || n == 5760 ||
    (8192 ≤ n && n ≤ 8202) || n == 8232 || n == 8233 || n == 8239 || n == 8287 || n == 12288

/-- A text without the blanks at its two ends. -/
def trim (s : List Char) : List Char :=
  ((s.dropWhile isBlank).reverse.dropWhile isBlank).reverse

@[simp] theorem trim_nil : trim [] = [] := rfl

/-- A text that neither begins nor ends with a blank is its own trimmed form. -/
theorem trim_eq_self {s : List Char} (first : ∀ c ∈ s.head?, isBlank c = false)
    (last : ∀ c ∈ s.getLast?, isBlank c = false) : trim s = s := by
  have keeps : ∀ t : List Char, (∀ c ∈ t.head?, isBlank c = false) →
      t.dropWhile isBlank = t := by
    intro t solid
    cases t with
    | nil => rfl
    | cons c rest => simp [solid c (by simp)]
  rw [trim, keeps s first, keeps s.reverse (by simpa using last), List.reverse_reverse]

end MusicAlgebra.Text
