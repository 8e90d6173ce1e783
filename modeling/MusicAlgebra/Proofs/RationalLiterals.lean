import Mathlib.Algebra.Order.Field.Rat
import Mathlib.Data.Rat.Lemmas
import Mathlib.Tactic.FieldSimp
import Mathlib.Tactic.Ring
import MusicAlgebra.Number.Literal
import MusicAlgebra.Proofs.BlankMargins

/-!
# The grammar of rational literals

A literal is described here by what it consists of, from the digits upwards, and by the number that
each part denotes.  Reading is sound and complete for this description: it gives exactly the number
that a literal denotes, and gives none for any other text.
-/

namespace MusicAlgebra.Number

open MusicAlgebra.Text

/-! ## Runs of digits -/

/-- The number that digits denote. -/
def decimal (digits : List Nat) : Nat := digits.foldl (fun value digit => value * 10 + digit) 0

/-- Digits that continue a run, each of them with or without an underscore before it. -/
inductive Continues : List Char → List Nat → Prop where
  | done : Continues [] []
  | digit {c : Char} {d : Nat} {s : List Char} {digits : List Nat} (read : digit? c = some d)
      (further : Continues s digits) : Continues (c :: s) (d :: digits)
  | spaced {c : Char} {d : Nat} {s : List Char} {digits : List Nat} (read : digit? c = some d)
      (further : Continues s digits) : Continues ('_' :: c :: s) (d :: digits)

/-- At least one digit, with or without single underscores between digits. -/
inductive Figures : List Char → List Nat → Prop where
  | mk {c : Char} {d : Nat} {s : List Char} {digits : List Nat} (read : digit? c = some d)
      (further : Continues s digits) : Figures (c :: s) (d :: digits)

/-- The digits on one side of a decimal point, which may be missing. -/
def Places (s : List Char) (digits : List Nat) : Prop := s = [] ∧ digits = [] ∨ Figures s digits

/-- The digits of an integer, few enough to be read. -/
structure Integer [Limits] (s : List Char) (digits : List Nat) : Prop where
  figures : Figures s digits
  short : admits digits.length = true

/-- A text that does not continue a run of digits. -/
def Stops (rest : List Char) : Prop := ∀ c ∈ rest.head?, c ≠ '_' ∧ digit? c = none

variable {c : Char} {d value count : Nat} {s t rest : List Char} {digits : List Nat} {q : Rat}

theorem ne_underscore_of_digit? (read : digit? c = some d) : c ≠ '_' := by
  rintro rfl
  cases read

namespace DigitRun

theorem extend_digit (read : digit? c = some d) :
    extend value count (c :: s) = extend (value * 10 + d) (count + 1) s := by
  have other := ne_underscore_of_digit? read
  cases s <;> simp [extend, other, read]

theorem extend_spaced (read : digit? c = some d) (begun : 0 < count) :
    extend value count ('_' :: c :: s) = extend (value * 10 + d) (count + 1) s := by
  simp [extend, read, Nat.ne_of_gt begun]

theorem extend_of_stops (stops : Stops rest) : extend value count rest = ⟨value, count, rest⟩ := by
  cases rest with
  | nil => rfl
  | cons c s =>
      obtain ⟨other, unread⟩ := stops c rfl
      cases s <;> simp [extend, other, unread]

/-- A run takes in all digits that continue it. -/
theorem extend_of_continues (continues : Continues s digits) (stops : Stops rest)
    (begun : 0 < count) :
    extend value count (s ++ rest) =
      ⟨digits.foldl (fun value digit => value * 10 + digit) value, count + digits.length,
        rest⟩ := by
  induction continues generalizing value count with
  | done => exact extend_of_stops stops
  | digit read _ ih =>
      rw [List.cons_append, extend_digit read, ih (Nat.succ_pos _)]
      simp [Nat.add_assoc, Nat.add_comm 1]
  | spaced read _ ih =>
      rw [List.cons_append, List.cons_append, extend_spaced read begun, ih (Nat.succ_pos _)]
      simp [Nat.add_assoc, Nat.add_comm 1]

/-- What a run that has begun takes in are digits that continue it. -/
theorem exists_continues (value count : Nat) (s : List Char) (begun : 0 < count) :
    ∃ t digits, Continues t digits ∧ s = t ++ (extend value count s).rest ∧
      (extend value count s).value =
        digits.foldl (fun value digit => value * 10 + digit) value ∧
      (extend value count s).count = count + digits.length := by
  fun_induction extend value count s with
  | case1 value count => exact ⟨[], [], .done, rfl, rfl, rfl⟩
  | case2 value c rest d read => exact absurd begun (Nat.lt_irrefl 0)
  | case3 value count c rest d read some ih =>
      obtain ⟨t, digits, continues, split, same, counted⟩ := ih (Nat.succ_pos _)
      refine ⟨'_' :: c :: t, d :: digits, .spaced read continues, ?_, same, ?_⟩
      · rw [List.cons_append, List.cons_append, ← split]
      · rw [counted, List.length_cons]
        omega
  | case4 value count c rest unread => exact ⟨[], [], .done, rfl, rfl, rfl⟩
  | case5 value count c rest other d read ih =>
      obtain ⟨t, digits, continues, split, same, counted⟩ := ih (Nat.succ_pos _)
      refine ⟨c :: t, d :: digits, .digit read continues, ?_, same, ?_⟩
      · rw [List.cons_append, ← split]
      · rw [counted, List.length_cons]
        omega
  | case6 value count c rest other unread => exact ⟨[], [], .done, rfl, rfl, rfl⟩

end DigitRun

theorem digitRun_of_stops (stops : Stops rest) : digitRun rest = ⟨0, 0, rest⟩ :=
  DigitRun.extend_of_stops stops

/-- A run takes in the figures at the front of a text. -/
theorem digitRun_figures (figures : Figures s digits) (stops : Stops rest) :
    digitRun (s ++ rest) = ⟨decimal digits, digits.length, rest⟩ := by
  cases figures with
  | mk read further =>
      rw [digitRun, List.cons_append, DigitRun.extend_digit read,
        DigitRun.extend_of_continues further stops (Nat.succ_pos _)]
      simp [decimal, Nat.add_comm 1]

theorem digitRun_places (places : Places s digits) (stops : Stops rest) :
    digitRun (s ++ rest) = ⟨decimal digits, digits.length, rest⟩ := by
  obtain ⟨rfl, rfl⟩ | figures := places
  · exact digitRun_of_stops stops
  · exact digitRun_figures figures stops

/-- What a run takes in are figures, if it takes in anything. -/
theorem exists_places (s : List Char) :
    ∃ t digits, Places t digits ∧ s = t ++ (digitRun s).rest ∧
      (digitRun s).value = decimal digits ∧ (digitRun s).count = digits.length := by
  cases s with
  | nil => exact ⟨[], [], .inl ⟨rfl, rfl⟩, rfl, rfl, rfl⟩
  | cons c s =>
      cases read : digit? c with
      | some d =>
          obtain ⟨t, digits, continues, split, same, counted⟩ :=
            DigitRun.exists_continues (0 * 10 + d) (0 + 1) s (Nat.succ_pos _)
          rw [← DigitRun.extend_digit read] at split same counted
          refine ⟨c :: t, d :: digits, .inr (.mk read continues), ?_, same, ?_⟩
          · rw [List.cons_append]
            exact congrArg _ split
          · rw [digitRun, counted, List.length_cons]
            omega
      | none =>
          -- An underscore is taken in between digits only, so none begins a run.
          have stays : digitRun (c :: s) = ⟨0, 0, c :: s⟩ := by
            cases s with
            | nil => simp [digitRun, DigitRun.extend, read]
            | cons c' s =>
                by_cases spacer : c = '_'
                · subst spacer
                  cases read' : digit? c' <;> simp [digitRun, DigitRun.extend, read']
                · simp [digitRun, DigitRun.extend, spacer, read]
          rw [stays]
          exact ⟨[], [], .inl ⟨rfl, rfl⟩, rfl, rfl, rfl⟩

theorem Figures.length_pos (figures : Figures s digits) : 0 < digits.length := by
  cases figures
  exact Nat.succ_pos _

theorem Integer.isInteger [Limits] (integer : Integer s digits) :
    DigitRun.isInteger ⟨value, digits.length, rest⟩ = true := by
  simp [DigitRun.isInteger, integer.figures.length_pos, integer.short]

/-- A run that is an integer takes in the digits of one. -/
theorem exists_integer [Limits] (isInteger : (digitRun s).isInteger = true) :
    ∃ t digits, Integer t digits ∧ s = t ++ (digitRun s).rest ∧
      (digitRun s).value = decimal digits := by
  obtain ⟨t, digits, places, split, same, counted⟩ := exists_places s
  simp only [DigitRun.isInteger, counted, Bool.and_eq_true, decide_eq_true_eq] at isInteger
  obtain ⟨rfl, rfl⟩ | figures := places
  · exact absurd isInteger.1 (Nat.lt_irrefl 0)
  · exact ⟨t, digits, ⟨figures, isInteger.2⟩, split, same⟩

/-! ## Signs and exponents -/

/-- A sign, which may be missing, and whether it is negative. -/
inductive Sign : List Char → Bool → Prop where
  | absent : Sign [] false
  | plus : Sign ['+'] false
  | minus : Sign ['-'] true

/-- An exponent of ten, which may be missing. -/
inductive Exponent [Limits] : List Char → Int → Prop where
  | absent : Exponent [] 0
  | mk {mark : Char} {sign s : List Char} {negative : Bool} {digits : List Nat}
      (isMark : mark = 'e' ∨ mark = 'E') (signed : Sign sign negative)
      (integer : Integer s digits) :
      Exponent (mark :: (sign ++ s)) (if negative then -decimal digits else decimal digits)

variable {sign : List Char} {negative : Bool} {exponent : Int}

/-- A text that begins with a digit or a point. -/
def Opens (s : List Char) : Prop := ∃ c t, s = c :: t ∧ (c = '.' ∨ ∃ d, digit? c = some d)

theorem Opens.append (opens : Opens s) (t : List Char) : Opens (s ++ t) := by
  obtain ⟨c, rest, rfl, first⟩ := opens
  exact ⟨c, rest ++ t, rfl, first⟩

theorem Figures.opens (figures : Figures s digits) : Opens s := by
  cases figures with
  | mk read further => exact ⟨_, _, rfl, .inr ⟨_, read⟩⟩

theorem readSign_append (signed : Sign sign negative) (opens : Opens s) :
    readSign (sign ++ s) = (negative, s) := by
  cases signed with
  | plus => rfl
  | minus => rfl
  | absent =>
      obtain ⟨c, rest, rfl, first⟩ := opens
      have unsigned : c ≠ '-' ∧ c ≠ '+' := by
        obtain rfl | ⟨d, read⟩ := first
        · decide
        · constructor <;> rintro rfl <;> cases read
      simp [readSign, unsigned]

/-- No blank comes before a sign or a digit. -/
theorem Sign.isBlank_head_append (signed : Sign sign negative) (opens : Opens s) :
    ∀ c ∈ (sign ++ s).head?, isBlank c = false := by
  cases signed with
  | plus => rintro c ⟨⟩; rfl
  | minus => rintro c ⟨⟩; rfl
  | absent =>
      obtain ⟨c, rest, rfl, first⟩ := opens
      rintro c ⟨⟩
      obtain rfl | ⟨d, read⟩ := first
      · rfl
      · exact isBlank_eq_false_of_digit? read

theorem exists_sign (s : List Char) :
    ∃ sign, Sign sign (readSign s).1 ∧ s = sign ++ (readSign s).2 := by
  fun_cases readSign s with
  | case1 rest => exact ⟨['-'], .minus, rfl⟩
  | case2 rest => exact ⟨['+'], .plus, rfl⟩
  | case3 notMinus notPlus => exact ⟨[], .absent, rfl⟩

theorem stops_of_isBlank (blank : ∀ c ∈ rest, isBlank c = true) : Stops rest := by
  intro c first
  have isBlank := blank c (List.mem_of_mem_head? first)
  refine ⟨?_, digit?_eq_none_of_isBlank isBlank⟩
  rintro rfl
  cases isBlank

theorem Exponent.stops [Limits] (written : Exponent t exponent) (stops : Stops rest) :
    Stops (t ++ rest) := by
  cases written with
  | absent => exact stops
  | mk isMark signed integer =>
      rintro c ⟨⟩
      obtain rfl | rfl := isMark <;> decide

/-- An exponent multiplies by a power of ten. -/
theorem readExponent_append [Limits] (written : Exponent t exponent)
    (blank : ∀ c ∈ rest, isBlank c = true) (q : Rat) :
    readExponent q (t ++ rest) = (q * 10 ^ exponent, rest) := by
  cases written with
  | absent =>
      cases rest with
      | nil => simp [readExponent]
      | cons c rest =>
          have isBlank := blank c List.mem_cons_self
          have unmarked : ¬ (c = 'e' ∨ c = 'E') := by
            rintro (rfl | rfl) <;> cases isBlank
          simp [readExponent, unmarked]
  | mk isMark signed integer =>
      rw [List.cons_append, List.append_assoc, readExponent, if_pos isMark,
        readSign_append signed (integer.figures.opens.append rest)]
      simp only [digitRun_figures integer.figures (stops_of_isBlank blank), integer.isInteger]
      cases ‹Bool› <;> simp [zpow_neg, div_eq_mul_inv]

/-- Where an exponent is read there is one, and the value is multiplied by it. -/
theorem exists_exponent [Limits] (q : Rat) (s : List Char) :
    ∃ t exponent, Exponent t exponent ∧ s = t ++ (readExponent q s).2 ∧
      (readExponent q s).1 = q * 10 ^ exponent := by
  have unmarked : ∃ t exponent, Exponent t exponent ∧ s = t ++ s ∧ q = q * 10 ^ exponent :=
    ⟨[], 0, .absent, rfl, by simp⟩
  cases s with
  | nil => exact unmarked
  | cons c s =>
      rw [readExponent]
      split
      · next isMark =>
          obtain ⟨sign, signed, split⟩ := exists_sign s
          cases isInteger : (digitRun (readSign s).2).isInteger with
          | false => simpa [isInteger] using unmarked
          | true =>
              obtain ⟨t, digits, integer, further, same⟩ := exists_integer isInteger
              refine ⟨c :: (sign ++ t), _, .mk isMark signed integer, ?_, ?_⟩
              · simp only [isInteger, Bool.not_true, Bool.false_eq_true, ↓reduceIte]
                rw [List.cons_append, List.append_assoc, ← further, ← split]
              · simp only [isInteger, same, Bool.not_true, Bool.false_eq_true, ↓reduceIte]
                cases (readSign s).1 <;> simp [zpow_neg, div_eq_mul_inv]
      · exact unmarked

/-! ## Whole literals -/

/-- A literal without sign and blanks, and its value. -/
inductive Magnitude [Limits] : List Char → Rat → Prop where
  | integer {s t : List Char} {digits : List Nat} {exponent : Int} (whole : Integer s digits)
      (written : Exponent t exponent) : Magnitude (s ++ t) (decimal digits * 10 ^ exponent)
  | quotient {s t : List Char} {above below : List Nat} (numerator : Integer s above)
      (denominator : Integer t below) (nonzero : decimal below ≠ 0) :
      Magnitude (s ++ '/' :: t) (decimal above / decimal below)
  | decimal {s t u : List Char} {before after : List Nat} {exponent : Int}
      (whole : Places s before) (places : Places t after)
      (nonempty : before ≠ [] ∨ after ≠ []) (shortBefore : admits before.length = true)
      (shortAfter : admits after.length = true) (written : Exponent u exponent) :
      Magnitude (s ++ '.' :: (t ++ u))
        ((decimal before + decimal after / 10 ^ after.length) * 10 ^ exponent)

/-- A rational literal: a magnitude with a sign, and with blanks around it. -/
def Literal [Limits] (text : String) (q : Rat) : Prop :=
  ∃ sign negative s magnitude, Sign sign negative ∧ Magnitude s magnitude ∧
    Padded (sign ++ s) text.toList ∧ q = if negative then -magnitude else magnitude

theorem Magnitude.opens [Limits] (magnitude : Magnitude s q) : Opens s := by
  cases magnitude with
  | integer whole written => exact whole.figures.opens.append _
  | quotient numerator denominator nonzero => exact numerator.figures.opens.append _
  | decimal whole places nonempty shortBefore shortAfter written =>
      obtain ⟨rfl, rfl⟩ | figures := whole
      · exact ⟨'.', _, rfl, .inl rfl⟩
      · exact figures.opens.append _

theorem stops_cons (other : c ≠ '_') (unread : digit? c = none) : Stops (c :: rest) := by
  rintro c ⟨⟩
  exact ⟨other, unread⟩

/-- Neither a stroke nor a point follows an integer that has an exponent or none. -/
theorem Exponent.apart [Limits] (written : Exponent t exponent)
    (blank : ∀ c ∈ rest, isBlank c = true) :
    ∀ c ∈ (t ++ rest).head?, c ≠ '/' ∧ c ≠ '.' := by
  cases written with
  | absent =>
      intro c first
      have isBlank := blank c (List.mem_of_mem_head? first)
      constructor <;> rintro rfl <;> cases isBlank
  | mk isMark signed integer =>
      rintro c ⟨⟩
      obtain rfl | rfl := isMark <;> decide

/-- A decimal fraction is its digits without the point, divided by a power of ten. -/
theorem mkRat_places (whole places count : Nat) :
    mkRat (whole * Nat.pow 10 count + places : Nat) (Nat.pow 10 count) =
      (whole + places / 10 ^ count : Rat) := by
  have scale : ((10 : Rat) ^ count) ≠ 0 := pow_ne_zero _ (by decide)
  rw [Rat.mkRat_eq_div, Nat.pow_eq]
  push_cast
  field_simp

/-- A magnitude is read whole where nothing but blanks follows it. -/
theorem readMagnitude_append [Limits] (magnitude : Magnitude s q)
    (blank : ∀ c ∈ rest, isBlank c = true) :
    readMagnitude (s ++ rest) = some (q, rest) := by
  have stops := stops_of_isBlank blank
  cases magnitude with
  | @integer s t digits exponent whole written =>
      have run := digitRun_figures whole.figures (written.stops stops)
      have apart := written.apart blank
      rw [List.append_assoc, readMagnitude]
      simp only [run]
      split
      · next tail behind => exact absurd rfl (apart '/' (by rw [behind]; rfl)).1
      · next tail behind => exact absurd rfl (apart '.' (by rw [behind]; rfl)).2
      · rw [if_pos whole.isInteger, readExponent_append written blank]
  | @quotient s t above below numerator denominator nonzero =>
      have stroke : Stops ('/' :: (t ++ rest)) := stops_cons (by decide) (by decide)
      rw [List.append_assoc, List.cons_append, readMagnitude]
      simp only [digitRun_figures numerator.figures stroke,
        digitRun_figures denominator.figures stops, numerator.isInteger, denominator.isInteger]
      simp [nonzero, Rat.mkRat_eq_div]
  | @decimal s t u before after exponent whole places nonempty shortBefore shortAfter written =>
      have point : Stops ('.' :: (t ++ (u ++ rest))) := stops_cons (by decide) (by decide)
      rw [List.append_assoc, List.cons_append, List.append_assoc, readMagnitude]
      simp only [digitRun_places whole point, digitRun_places places (written.stops stops)]
      have counted : ¬ ([before.length, after.length] = [0, 0] ∨
          (!List.all [before.length, after.length] admits) = true) := by
        rintro (empty | long)
        · simp only [List.cons.injEq, List.length_eq_zero_iff, and_true] at empty
          exact nonempty.elim (absurd empty.1) (absurd empty.2)
        · simp [shortBefore, shortAfter] at long
      rw [if_neg counted, readExponent_append written blank, mkRat_places]

/-- What is read as a magnitude is one. -/
theorem exists_magnitude [Limits] (read : readMagnitude s = some (q, rest)) :
    ∃ t, Magnitude t q ∧ s = t ++ rest := by
  unfold readMagnitude at read
  dsimp only at read
  split at read
  · next tail behind =>
      split at read
      · cases read
      · next readable =>
          simp only [Bool.not_eq_true', not_or, Bool.not_eq_false] at readable
          obtain ⟨wholeIs, belowIs, nonzero⟩ := readable
          cases read
          obtain ⟨t, above, numerator, split, same⟩ := exists_integer wholeIs
          obtain ⟨u, below, denominator, further, same'⟩ := exists_integer belowIs
          rw [same'] at nonzero
          refine ⟨t ++ '/' :: u, ?_, ?_⟩
          · rw [same, same', Rat.mkRat_eq_div, Int.cast_natCast]
            exact .quotient numerator denominator nonzero
          · rw [List.append_assoc, List.cons_append, ← further, ← behind]
            exact split
  · next tail behind =>
      split at read
      · cases read
      · next readable =>
          simp only [not_or, List.cons.injEq, and_true, List.all_cons, List.all_nil, Bool.and_true,
            Bool.not_eq_true', Bool.not_eq_false, Bool.and_eq_true] at readable
          obtain ⟨nonempty, shortBefore, shortAfter⟩ := readable
          obtain ⟨t, before, whole, split, same, counted⟩ := exists_places s
          obtain ⟨u, after, places, further, same', counted'⟩ := exists_places tail
          obtain ⟨v, exponent, written, last, value⟩ := exists_exponent
            (mkRat ((digitRun s).value * Nat.pow 10 (digitRun tail).count +
              (digitRun tail).value : Nat) (Nat.pow 10 (digitRun tail).count)) (digitRun tail).rest
          rw [Option.some.inj read] at last value
          rw [counted] at nonempty shortBefore
          rw [counted'] at nonempty shortAfter
          rw [same, same', counted', mkRat_places] at value
          have some : before ≠ [] ∨ after ≠ [] := by
            simpa only [List.length_eq_zero_iff, not_and_or] using nonempty
          refine ⟨t ++ '.' :: (u ++ v), ?_, ?_⟩
          · rw [show q = _ from value]
            exact .decimal whole places some shortBefore shortAfter written
          · rw [List.append_assoc, List.cons_append, List.append_assoc, ← last, ← further, ← behind]
            exact split
  · next behind =>
      split at read
      · next isInteger =>
          obtain ⟨t, digits, whole, split, same⟩ := exists_integer isInteger
          obtain ⟨u, exponent, written, last, value⟩ :=
            exists_exponent (digitRun s).value (digitRun s).rest
          rw [Option.some.inj read] at last value
          refine ⟨t ++ u, ?_, ?_⟩
          · rw [show q = _ from value, same]
            exact .integer whole written
          · rw [List.append_assoc, ← last]
            exact split
      · cases read

/-- Reading gives exactly the number that a literal denotes. -/
theorem read_eq_some_iff [Limits] {text : String} : read text = some q ↔ Literal text q := by
  constructor
  · intro found
    unfold read at found
    dsimp only at found
    split at found
    · next magnitude rest readMag =>
        split at found
        · next blank =>
            cases found
            obtain ⟨s, isMagnitude, behind⟩ := exists_magnitude readMag
            obtain ⟨sign, signed, split⟩ := exists_sign (text.toList.dropWhile isBlank)
            refine ⟨sign, _, s, magnitude, signed, isMagnitude, ⟨text.toList.takeWhile isBlank,
              rest, ?_, fun _ => List.mem_takeWhile_imp, List.all_eq_true.1 blank⟩, rfl⟩
            rw [List.append_assoc, ← behind, ← split, List.takeWhile_append_dropWhile]
        · cases found
    · cases found
  · rintro ⟨sign, negative, s, magnitude, signed, isMagnitude, padded, rfl⟩
    obtain ⟨before, after, whole, blankBefore, blankAfter⟩ := padded
    have opens := isMagnitude.opens.append after
    rw [read, whole, List.append_assoc,
      dropWhile_isBlank blankBefore (signed.isBlank_head_append opens),
      readSign_append signed opens]
    simp only [readMagnitude_append isMagnitude blankAfter]
    rw [if_pos (List.all_eq_true.2 blankAfter)]

end MusicAlgebra.Number
