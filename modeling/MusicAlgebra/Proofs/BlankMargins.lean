import Mathlib.Data.List.TakeWhile
import MusicAlgebra.Text.Blank
import MusicAlgebra.Text.Digit

/-!
# Texts with blank margins

A number or a pitch may be written with blanks around it.  No digit of any script is blank, so such
a text is found again when the blanks at the two ends are taken away.
-/

namespace MusicAlgebra.Text

variable {c : Char} {digit : Nat} {s core before after : List Char}

/-- A text with nothing but blanks around its core. -/
def Padded (core s : List Char) : Prop :=
  ∃ before after : List Char, s = before ++ (core ++ after) ∧
    (∀ c ∈ before, isBlank c = true) ∧ ∀ c ∈ after, isBlank c = true

/-- The code points of all blanks. -/
def blankCodes : List Nat :=
  [9, 10, 11, 12, 13, 28, 29, 30, 31, 32, 133, 160, 5760, 8192, 8193, 8194, 8195, 8196, 8197, 8198,
    8199, 8200, 8201, 8202, 8232, 8233, 8239, 8287, 12288]

theorem mem_blankCodes (blank : isBlank c = true) : c.toNat ∈ blankCodes := by
  simp only [isBlank, Bool.or_eq_true, Bool.and_eq_true, decide_eq_true_eq, beq_iff_eq] at blank
  simp only [blankCodes, List.mem_cons, List.not_mem_nil, or_false]
  omega

theorem digit?_eq_none_of_isBlank (blank : isBlank c = true) : digit? c = none := by
  have apart : ∀ code ∈ blankCodes, ∀ start ∈ zeroDigits, ¬ (start ≤ code ∧ code < start + 10) := by
    decide +kernel
  rw [digit?, Option.map_eq_none_iff, List.find?_eq_none]
  intro start member
  simpa using apart c.toNat (mem_blankCodes blank) start member

theorem isBlank_eq_false_of_digit? (read : digit? c = some digit) : isBlank c = false := by
  cases blank : isBlank c with
  | false => rfl
  | true => cases (digit?_eq_none_of_isBlank blank).symm.trans read

theorem dropWhile_isBlank (blank : ∀ c ∈ before, isBlank c = true)
    (first : ∀ c ∈ s.head?, isBlank c = false) :
    (before ++ s).dropWhile isBlank = s := by
  rw [List.dropWhile_append_of_pos blank]
  cases s with
  | nil => rfl
  | cons c s => rw [List.dropWhile_cons_of_neg (by simp [first c rfl])]

/-- Trimming a text takes its margins away. -/
theorem Padded.trim_eq (padded : Padded core s) (first : ∀ c ∈ core.head?, isBlank c = false)
    (last : ∀ c ∈ core.getLast?, isBlank c = false) : trim s = core := by
  obtain ⟨before, after, rfl, blankBefore, blankAfter⟩ := padded
  cases core with
  | nil =>
      have blank : ∀ c ∈ before ++ after, isBlank c = true := by
        intro c member
        exact (List.mem_append.1 member).elim (blankBefore c) (blankAfter c)
      rw [trim, List.nil_append, List.dropWhile_eq_nil_iff.2 blank]
      rfl
  | cons c core =>
      have lastFirst : ∀ c' ∈ (c :: core).reverse.head?, isBlank c' = false := by
        rw [List.head?_reverse]
        exact last
      rw [trim, dropWhile_isBlank (s := c :: core ++ after) blankBefore first, List.reverse_append,
        dropWhile_isBlank (by simpa using blankAfter) lastFirst, List.reverse_reverse]

theorem padded_trim (s : List Char) : Padded (trim s) s := by
  have front := List.takeWhile_append_dropWhile (p := isBlank) (l := s)
  have back := List.takeWhile_append_dropWhile (p := isBlank) (l := (s.dropWhile isBlank).reverse)
  have split := congrArg List.reverse back
  rw [List.reverse_append, List.reverse_reverse] at split
  refine ⟨s.takeWhile isBlank, ((s.dropWhile isBlank).reverse.takeWhile isBlank).reverse,
    ?_, ?_, ?_⟩
  · rw [trim, split, front]
  · intro c member
    exact List.mem_takeWhile_imp member
  · intro c member
    exact List.mem_takeWhile_imp (List.mem_reverse.1 member)

end MusicAlgebra.Text
