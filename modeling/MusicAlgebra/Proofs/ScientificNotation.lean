import Mathlib.Data.List.Forall2
import MusicAlgebra.Proofs.BlankMargins
import MusicAlgebra.Proofs.Refusals
import MusicAlgebra.Theory.Pitch

/-!
# Scientific notation of pitches

A pitch is written as a letter, large or small, an accidental and an octave, with blanks around the
whole.  Every other text is refused, and so is a pitch outside the MIDI range.
-/

namespace MusicAlgebra

/-! ## Letters and accidentals -/

namespace Letter

/-- A letter is written as a capital or as a small letter. -/
def WrittenAs (letter : Letter) (symbol : Char) : Prop :=
  symbol = letter.symbol ∨ symbol = letter.symbol.toLower

variable {letter : Letter} {symbol : Char}

theorem symbol_eq_of_ofSymbol? (found : ofSymbol? symbol = some letter) :
    symbol = letter.symbol := by
  have same := List.find?_some found
  exact (beq_iff_eq.1 same).symm

theorem WrittenAs.ofSymbol?_toUpper (written : letter.WrittenAs symbol) :
    ofSymbol? symbol.toUpper = some letter := by
  obtain rfl | rfl := written <;> cases letter <;> decide

theorem writtenAs_of_toUpper_eq (capital : symbol.toUpper = letter.symbol) :
    letter.WrittenAs symbol := by
  change dite _ _ _ = _ at capital
  by_cases small : 'a'.val ≤ symbol.val ∧ symbol.val ≤ 'z'.val
  · rw [dif_pos small] at capital
    have moved := congrArg Char.val capital
    dsimp only at moved
    have back : letter.symbol.toLower.val = letter.symbol.val - ('A'.val - 'a'.val) := by
      cases letter <;> rfl
    refine .inr (Char.ext ?_)
    rw [back, ← moved, UInt32.add_sub_cancel]
  · rw [dif_neg small] at capital
    exact .inl capital

theorem ofSymbol?_toUpper_eq_some_iff :
    ofSymbol? symbol.toUpper = some letter ↔ letter.WrittenAs symbol :=
  ⟨fun found => writtenAs_of_toUpper_eq (symbol_eq_of_ofSymbol? found),
    WrittenAs.ofSymbol?_toUpper⟩

/-- No letter, large or small, is blank. -/
theorem WrittenAs.isBlank_eq_false (written : letter.WrittenAs symbol) :
    Text.isBlank symbol = false := by
  obtain rfl | rfl := written <;> cases letter <;> decide

end Letter

namespace Accidental

variable {accidental : Accidental} {symbols : List Char}

theorem ofSymbols?_eq_some_iff :
    ofSymbols? symbols = some accidental ↔ symbols = accidental.symbols := by
  constructor
  · intro found
    have same := List.find?_some found
    exact (beq_iff_eq.1 same).symm
  · rintro rfl
    exact ofSymbols?_symbols accidental

theorem isSymbol_of_mem {c : Char} (member : c ∈ accidental.symbols) :
    (c == '#' || c == 'b') = true := by
  cases accidental <;> simp_all [symbols]

end Accidental

theorem Spelling.offset_mem (s : Spelling) : -2 ≤ s.offset ∧ s.offset ≤ 13 := by
  cases s with
  | mk letter accidental => cases letter <;> cases accidental <;> decide

namespace Pitch

/-! ## Octaves -/

namespace WrittenOctave

variable {octave : WrittenOctave} {figures s : List Char}

/-- The figures of an octave are digits of any script, at least one. -/
structure Reads (octave : WrittenOctave) (figures : List Char) : Prop where
  nonempty : figures ≠ []
  values : List.Forall₂ (fun c value => Text.digit? c = some value) figures octave.digits

/-- The sign that precedes the figures. -/
def sign (octave : WrittenOctave) : List Char := if octave.negative then ['-'] else []

theorem mapM_digit?_eq_some_iff {digits : List Nat} :
    figures.mapM Text.digit? = some digits ↔
      List.Forall₂ (fun c value => Text.digit? c = some value) figures digits := by
  constructor
  · intro traversed
    induction figures generalizing digits with
    | nil =>
        cases traversed
        exact .nil
    | cons c figures ih =>
        rw [List.mapM_cons] at traversed
        obtain ⟨value, read, traversed⟩ := Option.bind_eq_some_iff.1 traversed
        obtain ⟨others, readOthers, traversed⟩ := Option.bind_eq_some_iff.1 traversed
        cases traversed
        exact .cons read (ih readOthers)
  · intro each
    induction each with
    | nil => rfl
    | cons read _ ih =>
        rw [List.mapM_cons, read, ih]
        rfl

/-- Figures begin with a digit, so with no sign. -/
theorem Reads.exists_cons (reads : octave.Reads figures) :
    ∃ c rest value, figures = c :: rest ∧ Text.digit? c = some value := by
  cases figures with
  | nil => exact absurd rfl reads.nonempty
  | cons c rest =>
      obtain ⟨value, others, read, -, -⟩ := List.forall₂_cons_left_iff.1 reads.values
      exact ⟨c, rest, value, rfl, read⟩

/-- An octave is read from its sign and its figures. -/
theorem readOctave_sign_append (reads : octave.Reads figures) :
    readOctave (octave.sign ++ figures) = some octave := by
  have values := mapM_digit?_eq_some_iff.2 reads.values
  obtain ⟨c, rest, value, rfl, read⟩ := reads.exists_cons
  have unsigned : c ≠ '-' := by
    rintro rfl
    cases read
  cases octave with
  | mk negative digits =>
      cases negative with
      | true => simp [sign, readOctave, values]
      | false => simp [sign, readOctave, unsigned, values]

/-- What is read behind the sign are figures. -/
theorem reads_of_mapM {negative : Bool}
    (read : (if figures.isEmpty then none
      else (figures.mapM Text.digit?).map fun digits => { negative, digits }) = some octave) :
    octave.negative = negative ∧ octave.Reads figures := by
  split at read
  · cases read
  · next some =>
      obtain ⟨digits, values, rfl⟩ := Option.map_eq_some_iff.1 read
      refine ⟨rfl, ?_, mapM_digit?_eq_some_iff.1 values⟩
      rintro rfl
      exact some rfl

/-- Whatever is read as an octave is a sign with figures. -/
theorem exists_figures_of_readOctave (read : readOctave s = some octave) :
    ∃ figures, s = octave.sign ++ figures ∧ octave.Reads figures := by
  unfold readOctave at read
  split at read
  next negative figures split =>
    obtain ⟨signed, reads⟩ := reads_of_mapM read
    refine ⟨figures, ?_, reads⟩
    split at split
    · cases split
      rw [sign, signed]
      rfl
    · cases split
      rw [sign, signed]
      rfl

theorem readOctave_eq_some_iff :
    readOctave s = some octave ↔ ∃ figures, s = octave.sign ++ figures ∧ octave.Reads figures := by
  refine ⟨exists_figures_of_readOctave, ?_⟩
  rintro ⟨figures, rfl, reads⟩
  exact readOctave_sign_append reads

/-- No digit of an octave is blank. -/
theorem Reads.isBlank_eq_false (reads : octave.Reads figures) :
    ∀ c ∈ figures, Text.isBlank c = false := by
  have apart : List.Forall₂ (fun c value => Text.isBlank c = false ∧ Text.digit? c = some value)
      figures octave.digits :=
    reads.values.imp fun _ _ read => ⟨Text.isBlank_eq_false_of_digit? read, read⟩
  exact ((List.forall₂_and_left _ _).1 apart).1

theorem Reads.lt_ten (reads : octave.Reads figures) : ∀ digit ∈ octave.digits, digit < 10 := by
  have small : List.Forall₂ (fun digit c => digit < 10 ∧ Text.digit? c = some digit)
      octave.digits figures :=
    (reads.values.imp fun _ _ read => ⟨Text.digit?_lt read, read⟩).flip
  exact ((List.forall₂_and_left _ _).1 small).1

/-- Digits written after a number multiply it by a power of ten at most. -/
theorem foldl_digits_lt {digits : List Nat} (small : ∀ digit ∈ digits, digit < 10) (start : Nat) :
    digits.foldl (fun value digit => value * 10 + digit) start <
      (start + 1) * 10 ^ digits.length := by
  induction digits generalizing start with
  | nil => simp
  | cons digit digits ih =>
      obtain ⟨first, others⟩ := List.forall_mem_cons.1 small
      have next : start * 10 + digit + 1 ≤ (start + 1) * 10 := by omega
      calc _ < (start * 10 + digit + 1) * 10 ^ digits.length := ih others _
        _ ≤ (start + 1) * 10 * 10 ^ digits.length := Nat.mul_le_mul_right _ next
        _ = (start + 1) * 10 ^ (digits.length + 1) := by rw [Nat.pow_succ', Nat.mul_assoc]

theorem natAbs_value (octave : WrittenOctave) :
    octave.value.natAbs = octave.digits.foldl (fun value digit => value * 10 + digit) 0 := by
  cases octave with
  | mk negative digits => cases negative <;> simp [value]

/-- An octave of few enough digits can be written. -/
theorem Reads.isWritable_value [Limits] (reads : octave.Reads figures)
    (admitted : Number.admits octave.digits.length = true) :
    Number.isWritable octave.value = true := by
  have bound := foldl_digits_lt reads.lt_ten 0
  rw [← natAbs_value, Nat.zero_add, Nat.one_mul] at bound
  exact (Number.isWritable_intCast _).trans (Number.isShort_of_lt admitted bound)

/-- The sign and the figures of an octave do not begin like an accidental. -/
theorem Reads.exists_cons_sign_append (reads : octave.Reads figures) :
    ∃ c rest, octave.sign ++ figures = c :: rest ∧ (c == '#' || c == 'b') = false := by
  obtain ⟨c, rest, value, rfl, read⟩ := reads.exists_cons
  cases signed : octave.negative with
  | true => exact ⟨'-', c :: rest, by simp [sign, signed], rfl⟩
  | false =>
      refine ⟨c, rest, by simp [sign, signed], ?_⟩
      cases alike : c == '#' || c == 'b' with
      | false => rfl
      | true =>
          obtain same | same := (Bool.or_eq_true _ _).mp alike <;> cases beq_iff_eq.1 same <;>
            cases read

end WrittenOctave

/-! ## Whole texts -/

/-- A text without blanks around it is a letter, an accidental, and the sign and the figures of an
octave. -/
def Notates (core : List Char) (spelling : Spelling) (octave : WrittenOctave) : Prop :=
  ∃ symbol figures, spelling.letter.WrittenAs symbol ∧ octave.Reads figures ∧
    core = symbol :: (spelling.accidental.symbols ++ (octave.sign ++ figures))

/-- A text in scientific notation, blanks around it being ignored. -/
def Names (text : String) (spelling : Spelling) (octave : WrittenOctave) : Prop :=
  ∃ core, Text.Padded core text.toList ∧ Notates core spelling octave

variable {core : List Char} {text : String} {spelling : Spelling} {octave : WrittenOctave}

theorem readScientific_eq_some_iff :
    readScientific core = some (spelling, octave) ↔ Notates core spelling octave := by
  constructor
  · intro read
    cases core with
    | nil => cases read
    | cons symbol rest =>
        obtain ⟨letter, letterRead, read⟩ := Option.bind_eq_some_iff.1 read
        obtain ⟨accidental, accidentalRead, read⟩ := Option.bind_eq_some_iff.1 read
        obtain ⟨_, octaveRead, read⟩ := Option.bind_eq_some_iff.1 read
        cases read
        obtain ⟨figures, behind, reads⟩ := WrittenOctave.readOctave_eq_some_iff.1 octaveRead
        refine ⟨symbol, figures, Letter.ofSymbol?_toUpper_eq_some_iff.1 letterRead, reads, ?_⟩
        rw [← Accidental.ofSymbols?_eq_some_iff.1 accidentalRead, ← behind,
          List.takeWhile_append_dropWhile]
  · rintro ⟨symbol, figures, written, reads, rfl⟩
    -- The accidental is read as far as its symbols go; the octave begins with none of them.
    have isSymbol : ∀ c ∈ spelling.accidental.symbols, (c == '#' || c == 'b') = true :=
      fun _ => Accidental.isSymbol_of_mem
    obtain ⟨c, rest, behind, other⟩ := reads.exists_cons_sign_append
    have octaveRead := WrittenOctave.readOctave_sign_append reads
    rw [behind] at octaveRead ⊢
    have front : (spelling.accidental.symbols ++ c :: rest).takeWhile
        (fun c => c == '#' || c == 'b') = spelling.accidental.symbols := by
      rw [List.takeWhile_append_of_pos isSymbol, List.takeWhile_cons_of_neg (by simp [other]),
        List.append_nil]
    have back : (spelling.accidental.symbols ++ c :: rest).dropWhile
        (fun c => c == '#' || c == 'b') = c :: rest := by
      rw [List.dropWhile_append_of_pos isSymbol, List.dropWhile_cons_of_neg (by simp [other])]
    simp only [readScientific, front, back, octaveRead, Accidental.ofSymbols?_symbols,
      written.ofSymbol?_toUpper]
    rfl

/-- What is between the blanks neither begins nor ends with one. -/
theorem Notates.trim_eq {s : List Char} (notates : Notates core spelling octave)
    (padded : Text.Padded core s) : Text.trim s = core := by
  obtain ⟨symbol, figures, written, reads, rfl⟩ := notates
  refine padded.trim_eq ?_ ?_
  · rintro c ⟨⟩
    exact written.isBlank_eq_false
  · intro c last
    have split : symbol :: (spelling.accidental.symbols ++ (octave.sign ++ figures)) =
        (symbol :: spelling.accidental.symbols ++ octave.sign) ++ figures := by simp
    rw [split, List.getLast?_append_of_ne_nil _ reads.nonempty] at last
    exact reads.isBlank_eq_false c (List.mem_of_getLast? last)

theorem readScientific_trim_eq_some_iff :
    readScientific (Text.trim text.toList) = some (spelling, octave) ↔
      Names text spelling octave := by
  constructor
  · intro read
    exact ⟨_, Text.padded_trim _, readScientific_eq_some_iff.1 read⟩
  · rintro ⟨core, padded, notates⟩
    rw [notates.trim_eq padded, readScientific_eq_some_iff]
    exact notates

/-- A text names one spelling and one octave at most. -/
theorem Names.unique {spelling' : Spelling} {octave' : WrittenOctave}
    (names : Names text spelling octave) (names' : Names text spelling' octave') :
    spelling = spelling' ∧ octave = octave' := by
  have same := (readScientific_trim_eq_some_iff.2 names).symm.trans
    (readScientific_trim_eq_some_iff.2 names')
  cases same
  exact ⟨rfl, rfl⟩

theorem Names.exists_iff {holds : Spelling → WrittenOctave → Prop}
    (names : Names text spelling octave) :
    (∃ spelling octave, Names text spelling octave ∧ holds spelling octave) ↔
      holds spelling octave := by
  constructor
  · rintro ⟨spelling', octave', names', held⟩
    obtain ⟨rfl, rfl⟩ := names.unique names'
    exact held
  · exact fun held => ⟨spelling, octave, names, held⟩

/-! ## Reading -/

theorem parse_of_names [Limits] (names : Names text spelling octave) :
    parse text =
      if Number.admits octave.digits.length then ofSpelling spelling octave.value
      else .error .tooManyDigits := by
  rw [parse, readScientific_trim_eq_some_iff.2 names]

theorem parse_of_nameless [Limits] (nameless : ∀ spelling octave, ¬ Names text spelling octave) :
    parse text = .error (.unreadablePitch text) := by
  rw [parse]
  split
  · next spelling octave read =>
      exact absurd (readScientific_trim_eq_some_iff.1 read) (nameless spelling octave)
  · rfl

theorem ofSpelling_eq_ok_iff {number : Int} {p : Pitch} :
    ofSpelling spelling number = .ok p ↔ spelling = p.spelling ∧ number = p.octave := by
  constructor
  · intro built
    unfold ofSpelling at built
    split at built
    · cases built
      exact ⟨rfl, rfl⟩
    · cases built
  · rintro ⟨rfl, rfl⟩
    rw [ofSpelling, dif_pos p.inRange]

/-- A text is a pitch exactly if it names its spelling and its octave. -/
theorem parse_eq_ok_iff [Limits] {p : Pitch} :
    parse text = .ok p ↔ ∃ octave, Names text p.spelling octave ∧ octave.value = p.octave ∧
      Number.admits octave.digits.length = true := by
  constructor
  · intro parsed
    by_cases named : ∃ spelling octave, Names text spelling octave
    · obtain ⟨spelling, octave, names⟩ := named
      rw [parse_of_names names] at parsed
      split at parsed
      · next short =>
          obtain ⟨rfl, same⟩ := ofSpelling_eq_ok_iff.1 parsed
          exact ⟨octave, names, same, short⟩
      · cases parsed
    · rw [parse_of_nameless fun spelling octave names => named ⟨spelling, octave, names⟩] at parsed
      cases parsed
  · rintro ⟨octave, names, same, short⟩
    rw [parse_of_names names, if_pos short]
    exact ofSpelling_eq_ok_iff.2 ⟨rfl, same⟩

/-- A refusal reports an invalid value, unless it is for an octave that has too many digits to be
read or for a pitch whose number has too many to be quoted. -/
theorem not_isInvalidValue_iff [Limits] {cause : Rejection} (refused : parse text = .error cause) :
    cause.isInvalidValue = false ↔
      ∃ spelling octave, Names text spelling octave ∧
        (Number.admits octave.digits.length = false ∨
          Number.isShort (spelling.absolute octave.value).natAbs = false) := by
  by_cases named : ∃ spelling octave, Names text spelling octave
  · obtain ⟨spelling, octave, names⟩ := named
    rw [names.exists_iff]
    rw [parse_of_names names] at refused
    split at refused
    · next admitted =>
        obtain ⟨core, -, symbol, figures, -, reads, -⟩ := names
        unfold ofSpelling at refused
        split at refused
        · cases refused
        · cases refused
          rw [Rejection.isInvalidValue_pitchOutOfRange, reads.isWritable_value admitted,
            Bool.true_and, Number.isWritable_intCast, admitted]
          simp only [Bool.true_eq_false, false_or]
    · next long =>
        cases refused
        exact iff_of_true rfl (.inl (Bool.eq_false_iff.2 long))
  · rw [parse_of_nameless fun spelling octave names => named ⟨spelling, octave, names⟩] at refused
    cases refused
    refine iff_of_false (by simp [Rejection.isInvalidValue]) ?_
    rintro ⟨spelling, octave, names, -⟩
    exact named ⟨spelling, octave, names⟩

/-! ## Names of pitches -/

/-- The octave of a pitch has one digit. -/
theorem octave_mem (p : Pitch) : -2 ≤ p.octave ∧ p.octave ≤ 9 := by
  have reach := Spelling.offset_mem p.spelling
  have inRange := p.inRange
  simp only [Spelling.absolute] at inRange
  omega

/-- An octave of one digit as it is written. -/
def ofDigit (octave : Int) : WrittenOctave := ⟨octave < 0, [octave.natAbs]⟩

theorem toList_toString_octave (p : Pitch) :
    ∃ figures, (toString p.octave).toList = (ofDigit p.octave).sign ++ figures ∧
      (ofDigit p.octave).Reads figures := by
  obtain ⟨low, high⟩ := p.octave_mem
  have each : ∀ k ∈ List.range 12, ((toString ((k : Int) - 2)).toList =
      (ofDigit ((k : Int) - 2)).sign ++ [Nat.digitChar ((k : Int) - 2).natAbs]) ∧
        Text.digit? (Nat.digitChar ((k : Int) - 2).natAbs) = some ((k : Int) - 2).natAbs := by
    decide +kernel
  obtain ⟨k, far⟩ := Int.eq_ofNat_of_zero_le (a := p.octave + 2) (by omega)
  have same : (k : Int) - 2 = p.octave := by omega
  obtain ⟨written, read⟩ := each k (List.mem_range.2 (by omega))
  rw [same] at written read
  exact ⟨_, written, by simp, .cons read .nil⟩

/-- The name of a pitch names it. -/
theorem names_name (p : Pitch) : Names p.name p.spelling (ofDigit p.octave) := by
  obtain ⟨figures, written, reads⟩ := p.toList_toString_octave
  refine ⟨p.name.toList, ⟨[], [], by simp⟩, p.spelling.letter.symbol, figures, .inl rfl, reads, ?_⟩
  rw [name, String.toList_append, written, Spelling.name, String.toList_ofList, List.cons_append]

theorem value_ofDigit (octave : Int) : (ofDigit octave).value = octave := by
  simp only [ofDigit, WrittenOctave.value, List.foldl_cons, List.foldl_nil, Nat.zero_mul,
    Nat.zero_add, decide_eq_true_eq]
  split <;> omega

theorem parse_name [Limits] (p : Pitch) : parse p.name = .ok p :=
  parse_eq_ok_iff.2
    ⟨_, p.names_name, value_ofDigit p.octave, Number.admits_of_le (by decide : 1 ≤ 640)⟩

/-- Where integers of any length can be read and written, scientific notation is read exactly.  A
text is a pitch if it names a spelling and an octave that lie in the MIDI range, and then it is that
pitch.  Every other text is refused for what is wrong with it, in a report of an invalid value.
Every pitch is read back from its name. -/
theorem parse_reads_its_notation [Limits] (unlimited : Limits.mostDigits = none) (text : String)
    (p : Pitch) :
    (parse text = .ok p ↔
      ∃ octave, Names text p.spelling octave ∧ octave.value = p.octave) ∧
    ((∃ q, parse text = .ok q) ↔ ∃ spelling octave, Names text spelling octave ∧
      0 ≤ spelling.absolute octave.value ∧ spelling.absolute octave.value ≤ 127) ∧
    ((∀ spelling octave, ¬ Names text spelling octave) →
      parse text = .error (.unreadablePitch text)) ∧
    (∀ spelling octave, Names text spelling octave →
      ¬ (0 ≤ spelling.absolute octave.value ∧ spelling.absolute octave.value ≤ 127) →
        parse text = .error
          (.pitchOutOfRange spelling octave.value (spelling.absolute octave.value))) ∧
    (∀ cause, parse text = .error cause → cause.isInvalidValue = true) ∧
    parse p.name = .ok p := by
  have admitted := Number.admits_of_unlimited unlimited
  have outside : ∀ spelling octave, Names text spelling octave →
      ¬ (0 ≤ spelling.absolute octave.value ∧ spelling.absolute octave.value ≤ 127) →
        parse text = .error
          (.pitchOutOfRange spelling octave.value (spelling.absolute octave.value)) := by
    intro spelling octave names beyond
    rw [parse_of_names names, if_pos (admitted _), ofSpelling, dif_neg beyond]
  refine ⟨?_, ?_, parse_of_nameless, outside, ?_, p.parse_name⟩
  · simp only [parse_eq_ok_iff, admitted, and_true]
  · constructor
    · rintro ⟨q, parsed⟩
      obtain ⟨octave, names, same, -⟩ := parse_eq_ok_iff.1 parsed
      exact ⟨q.spelling, octave, names, same ▸ q.inRange⟩
    · rintro ⟨spelling, octave, names, inRange⟩
      exact ⟨⟨spelling, octave.value, inRange⟩, parse_eq_ok_iff.2 ⟨octave, names, rfl, admitted _⟩⟩
  · intro cause refused
    refine eq_true_of_ne_false fun silent => ?_
    obtain ⟨spelling, octave, -, long⟩ := (not_isInvalidValue_iff refused).1 silent
    simp [admitted, Number.isShort_of_unlimited unlimited] at long

open Unlimited

/-- `B#-2` is the lowest pitch of all, `C10` lies beyond the range, and two kinds of accidental
cannot be mixed. -/
theorem edges_of_scientific_notation :
    Limits.mostDigits = none ∧ Names " b#-2 " ⟨.b, .sharp⟩ ⟨true, [2]⟩ ∧
      Names "C10" ⟨.c, .natural⟩ ⟨false, [1, 0]⟩ ∧
      (∀ spelling octave, ¬ Names "C#b4" spelling octave) ∧
      parse " b#-2 " = .ok ⟨⟨.b, .sharp⟩, -2, by decide⟩ ∧
      parse "C10" = .error (.pitchOutOfRange ⟨.c, .natural⟩ 10 132) ∧
      (Rejection.pitchOutOfRange ⟨.c, .natural⟩ 10 132).isInvalidValue = true ∧
      parse "C#b4" = .error (.unreadablePitch "C#b4") := by
  have low : Names " b#-2 " ⟨.b, .sharp⟩ ⟨true, [2]⟩ :=
    readScientific_trim_eq_some_iff.1 rfl
  have high : Names "C10" ⟨.c, .natural⟩ ⟨false, [1, 0]⟩ :=
    readScientific_trim_eq_some_iff.1 rfl
  have mixed : ∀ spelling octave, ¬ Names "C#b4" spelling octave := by
    intro spelling octave names
    cases readScientific_trim_eq_some_iff.2 names
  have law := fun text => parse_reads_its_notation rfl text ⟨⟨.b, .sharp⟩, -2, by decide⟩
  obtain ⟨read, -⟩ := law " b#-2 "
  obtain ⟨-, -, -, outside, reported, -⟩ := law "C10"
  obtain ⟨-, -, nameless, -⟩ := law "C#b4"
  have refused := outside _ _ high (by decide)
  exact ⟨rfl, low, high, mixed, read.2 ⟨_, low, rfl⟩, refused, reported _ refused,
    nameless mixed⟩

end Pitch

end MusicAlgebra
