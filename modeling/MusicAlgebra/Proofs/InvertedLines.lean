import MusicAlgebra.Proofs.Lines
import MusicAlgebra.Proofs.ReversedScores
import MusicAlgebra.Proofs.RewrittenPitches

/-!
# Inverted lines

Melodic inversion mirrors the numbers of the plain notes of a line and keeps every other part.  It
is an instance of renumbering, in which every plain note gets a number that depends on its own.
Renumbering twice is renumbering once, and it makes no difference whether a line is renumbered
before or after it is reversed.  So the inversion of an inversion leaves the numbers as they were,
and two inversions around different notes are a transposition apart.
-/

namespace MusicAlgebra.Music

open Outcome

variable {m part part' : Music} {parts parts' : List Music} {f g : Int → Int}

/-! ## Renumbered parts -/

/-- A plain note with a number that depends on its own, spelled with sharps.  Parts that are no
plain notes are kept. -/
def renumber (f : Int → Int) : Music → Except Rejection Music
  | note n => do
    let pitch ← Pitch.ofAbsolute (f n.pitch.absolute)
    return note { n with pitch }
  | part => return part

theorem mirror_eq_renumber (axis : Int) : mirror axis = renumber (axis - ·) := by
  funext part
  cases part <;> rfl

theorem renumber_eq_error {cause : Rejection} :
    renumber f part = .error cause ↔
      ∃ x, part = note x ∧ ¬ (0 ≤ f x.pitch.absolute ∧ f x.pitch.absolute ≤ 127) ∧
        cause = .absoluteOutOfRange (f x.pitch.absolute) := by
  cases part with
  | note n =>
      by_cases inside : 0 ≤ f n.pitch.absolute ∧ f n.pitch.absolute ≤ 127
      · simp [renumber, Pitch.ofAbsolute, inside]
      · simp only [renumber, Pitch.ofAbsolute, inside, dif_neg, not_false_eq_true, error_bind,
          Except.error.injEq, note.injEq, exists_eq_left', true_and]
        exact eq_comm
  | _ =>
      constructor
      · intro refused
        cases refused
      · rintro ⟨x, same, -⟩
        cases same

/-- The number on the way leaves no trace. -/
theorem renumber_comp (renumbered : renumber f part = .ok part') (g : Int → Int) :
    renumber g part' = renumber (g ∘ f) part := by
  cases part with
  | note n =>
      obtain ⟨pitch, found, returned⟩ := bind_eq_ok.1 renumbered
      cases returned
      simp only [renumber, Pitch.absolute_of_ofAbsolute found, Function.comp_apply]
  | _ =>
      cases renumbered
      rfl

theorem renumber_retrograde (renumbered : renumber f part = .ok part') :
    renumber f part.retrograde = .ok part'.retrograde := by
  cases part with
  | note n =>
      obtain ⟨pitch, found, returned⟩ := bind_eq_ok.1 renumbered
      cases returned
      exact renumbered
  | parallel left right =>
      cases renumbered
      rw [retrograde_parallel]
      rfl
  | _ =>
      cases renumbered
      rfl

theorem duration_renumber (renumbered : renumber f part = .ok part') :
    part'.duration = part.duration := by
  cases part with
  | note n =>
      obtain ⟨pitch, found, returned⟩ := bind_eq_ok.1 renumbered
      cases returned
      rw [duration_note, duration_note]
  | _ =>
      cases renumbered
      rfl

theorem toLine_renumber (renumbered : renumber f part = .ok part') (alone : part.toLine = [part]) :
    part'.toLine = [part'] := by
  cases part with
  | note n =>
      obtain ⟨pitch, found, returned⟩ := bind_eq_ok.1 renumbered
      cases returned
      exact toLine_eq_singleton rfl rfl
  | _ =>
      cases renumbered
      exact alone

/-! ## Renumbered lines -/

theorem mapM_renumber_comp (traversed : parts.mapM (renumber f) = .ok parts') (g : Int → Int) :
    parts'.mapM (renumber g) = parts.mapM (renumber (g ∘ f)) := by
  rw [mapM_eq_ok_iff_forall₂] at traversed
  induction traversed with
  | nil => rfl
  | cons renumbered _ ih => rw [List.mapM_cons, List.mapM_cons, renumber_comp renumbered, ih]

/-- A line is renumbered backwards as it is forwards. -/
theorem mapM_renumber_retrograde (traversed : parts.mapM (renumber f) = .ok parts') :
    (parts.map retrograde).reverse.mapM (renumber f) = .ok (parts'.map retrograde).reverse := by
  rw [mapM_eq_ok_iff_forall₂] at traversed ⊢
  rw [List.forall₂_reverse_iff, List.forall₂_map_left_iff, List.forall₂_map_right_iff]
  exact traversed.imp fun _ _ => renumber_retrograde

theorem map_duration_renumber (traversed : parts.mapM (renumber f) = .ok parts') :
    parts'.map duration = parts.map duration := by
  rw [mapM_eq_ok_iff_forall₂] at traversed
  induction traversed with
  | nil => rfl
  | cons renumbered _ ih => rw [List.map_cons, List.map_cons, duration_renumber renumbered, ih]

/-- Every pitch has its own number. -/
theorem exists_mapM_renumber_id (parts : List Music) :
    ∃ parts', parts.mapM (renumber id) = .ok parts' := by
  cases traversed : parts.mapM (renumber id) with
  | ok parts' => exact ⟨parts', rfl⟩
  | error cause =>
      obtain ⟨part, -, refused⟩ := exists_of_mapM_error traversed
      obtain ⟨x, -, outside, -⟩ := renumber_eq_error.1 refused
      exact absurd x.pitch.inRange outside

/-! ## Lines of parts that are no sequences -/

theorem toLine_of_none (alone : m.operands? .sequential = none) :
    m.toLine = if m.isUnit then [] else [m] := by
  rw [toLine, flatten_of_none alone, List.filter_singleton]
  cases m.isUnit <;> rfl

theorem sum_duration_toLine (m : Music) : .sum (m.toLine.map duration) = m.duration := by
  induction m with
  | sequential left right leftIH rightIH =>
      rw [toLine_sequential, List.map_append, Amount.sum_append, leftIH, rightIH,
        duration_sequential]
  | rest length =>
      rw [toLine_of_none rfl, isUnit, duration_rest]
      by_cases none : length = 0
      · simp [none]
      · simp [none]
  | _ =>
      rw [toLine_of_none rfl]
      simp [isUnit]

theorem operands?_retrograde (alone : m.operands? .sequential = none) :
    m.retrograde.operands? .sequential = none := by
  cases m with
  | sequential left right => cases alone
  | parallel left right =>
      rw [retrograde_parallel]
      rfl
  | _ => rfl

theorem isUnit_retrograde (m : Music) : m.retrograde.isUnit = m.isUnit := by
  cases m with
  | parallel left right =>
      rw [retrograde_parallel]
      rfl
  | _ => rfl

theorem toLine_retrograde (m : Music) :
    m.retrograde.toLine = (m.toLine.map retrograde).reverse := by
  induction m with
  | sequential left right leftIH rightIH =>
      rw [retrograde, toLine_sequential, toLine_sequential, leftIH, rightIH, List.map_append,
        List.reverse_append]
  | _ =>
      rw [toLine_of_none (operands?_retrograde rfl), isUnit_retrograde, toLine_of_none rfl]
      split <;> rfl

theorem toLine_of_mem_toLine (member : part ∈ m.toLine) : part.toLine = [part] := by
  obtain ⟨operand, audible⟩ := List.mem_filter.1 member
  exact toLine_eq_singleton (operands?_of_mem_flatten operand) (by simpa using audible)

theorem toLine_line_of_alone (alone : ∀ part ∈ parts, part.toLine = [part]) :
    (line parts).toLine = parts := by
  rw [toLine_line, List.flatMap_def, List.map_congr_left alone]
  exact List.flatMap_singleton' parts

/-- A renumbered line is read back as it has been put together. -/
theorem toLine_line_renumber (traversed : m.toLine.mapM (renumber f) = .ok parts) :
    (line parts).toLine = parts := by
  apply toLine_line_of_alone
  intro part member
  obtain ⟨source, sourceMem, renumbered⟩ := exists_of_mem_mapM traversed member
  exact toLine_renumber renumbered (toLine_of_mem_toLine sourceMem)

/-! ## Inversions -/

section Inversion

variable {first : Note} {others : List Music} {t : Music}

theorem invert_eq (begins : m.toLine = note first :: others) :
    m.invert = line <$> m.toLine.mapM (renumber (2 * first.pitch.absolute - ·)) := by
  rw [invert, begins, ← mirror_eq_renumber]

theorem invert_eq_ok (begins : m.toLine = note first :: others) :
    m.invert = .ok t ↔
      m.toLine.mapM (renumber (2 * first.pitch.absolute - ·)) = .ok t.toLine ∧
        t = line t.toLine := by
  rw [invert_eq begins, map_eq_ok]
  constructor
  · rintro ⟨parts, traversed, rfl⟩
    rw [toLine_line_renumber traversed]
    exact ⟨traversed, rfl⟩
  · rintro ⟨traversed, regrouped⟩
    exact ⟨t.toLine, traversed, regrouped.symm⟩

theorem duration_invert (begins : m.toLine = note first :: others) (inverted : m.invert = .ok t) :
    t.duration = m.duration := by
  have traversed := ((invert_eq_ok begins).1 inverted).1
  rw [← sum_duration_toLine, map_duration_renumber traversed, sum_duration_toLine]

/-- The inversion begins with the same number. -/
theorem exists_first_of_invert (begins : m.toLine = note first :: others)
    (inverted : m.invert = .ok t) :
    ∃ n rest, t.toLine = note n :: rest ∧ n.pitch.absolute = first.pitch.absolute := by
  have traversed := ((invert_eq_ok begins).1 inverted).1
  rw [begins, List.mapM_cons] at traversed
  obtain ⟨begun, renumbered, traversed⟩ := bind_eq_ok.1 traversed
  obtain ⟨rest, -, returned⟩ := bind_eq_ok.1 traversed
  obtain ⟨pitch, found, same⟩ := bind_eq_ok.1 renumbered
  cases same
  refine ⟨_, rest, (Except.ok.inj returned).symm, ?_⟩
  have number := Pitch.absolute_of_ofAbsolute found
  have same : 2 * first.pitch.absolute - first.pitch.absolute = first.pitch.absolute := by omega
  exact number.trans same

theorem invert_invert (begins : m.toLine = note first :: others) (inverted : m.invert = .ok t) :
    ∃ u, t.invert = .ok u ∧ m.toLine.mapM (renumber id) = .ok u.toLine := by
  obtain ⟨n, rest, begun, same⟩ := exists_first_of_invert begins inverted
  obtain ⟨parts, traversed⟩ := exists_mapM_renumber_id m.toLine
  have once := ((invert_eq_ok begins).1 inverted).1
  -- both inversions are around the same number, so the second one mirrors every number back
  have back : (2 * first.pitch.absolute - ·) ∘ (2 * first.pitch.absolute - ·) = id := by
    funext number
    exact Int.sub_sub_self _ number
  have twice := mapM_renumber_comp once (2 * first.pitch.absolute - ·)
  rw [back, traversed] at twice
  refine ⟨line parts, ?_, ?_⟩
  · rw [invert_eq begun, same, twice]
    rfl
  · rw [toLine_line_renumber traversed, traversed]

theorem invert_eq_error (begins : m.toLine = note first :: others) {cause : Rejection}
    (refused : m.invert = .error cause) :
    ∃ x, note x ∈ m.toLine ∧
      cause = .absoluteOutOfRange (2 * first.pitch.absolute - x.pitch.absolute) := by
  rw [invert_eq begins, map_eq_error] at refused
  obtain ⟨part, member, outside⟩ := exists_of_mapM_error refused
  obtain ⟨x, rfl, -, same⟩ := renumber_eq_error.1 outside
  exact ⟨x, member, same⟩

/-- The mirrored number of a pitch has three digits at most. -/
theorem isInvalidValue_mirrored [Limits] (first x : Note) :
    Rejection.isInvalidValue
      (.absoluteOutOfRange (2 * first.pitch.absolute - x.pitch.absolute)) = true := by
  have near : (2 * first.pitch.absolute - x.pitch.absolute).natAbs ≤ 254 := by
    have low := x.pitch.absolute_nonneg
    have high := x.pitch.absolute_le
    have low' := first.pitch.absolute_nonneg
    have high' := first.pitch.absolute_le
    omega
  have short : Number.isShort 254 = true :=
    Number.isShort_of_lt (Number.admits_of_le (by decide : 3 ≤ 640)) (by decide)
  rw [Rejection.isInvalidValue_absoluteOutOfRange, Number.isWritable_intCast]
  exact Number.isShort_of_le near short

theorem exists_invert_error_iff (begins : m.toLine = note first :: others) :
    (∃ cause, m.invert = .error cause) ↔
      ∃ x, note x ∈ m.toLine ∧
        ¬ (0 ≤ 2 * first.pitch.absolute - x.pitch.absolute ∧
          2 * first.pitch.absolute - x.pitch.absolute ≤ 127) := by
  simp only [invert_eq begins, map_eq_error, exists_mapM_error_iff, renumber_eq_error]
  constructor
  · rintro ⟨part, member, cause, x, rfl, outside, -⟩
    exact ⟨x, member, outside⟩
  · rintro ⟨x, member, outside⟩
    exact ⟨note x, member, _, x, rfl, outside, rfl⟩

/-- Reversing a line after and before it is inverted: two inversions around its ends. -/
theorem invertRetro_eq {last : Note} {u : Music} (begins : m.toLine = note first :: others)
    (ends : m.toLine.getLast? = some (note last)) (former : m.retroInvert = .ok t)
    (latter : m.invertRetro = .ok u) :
    t.toLine.mapM (renumber (· + 2 * (last.pitch.absolute - first.pitch.absolute))) =
      .ok u.toLine := by
  obtain ⟨inverted, invertedOk, rfl⟩ := map_eq_ok.1 former
  have reversed : ∃ rest, m.retrograde.toLine = note last :: rest := by
    rw [toLine_retrograde, ← List.head?_eq_some_iff, List.head?_reverse, List.getLast?_map, ends]
    rfl
  obtain ⟨rest, begun⟩ := reversed
  -- the reversed line begins with the last note, so its numbers are mirrored around another one
  have forwards := ((invert_eq_ok begins).1 invertedOk).1
  have backwards := ((invert_eq_ok begun).1 latter).1
  have apart : (· + 2 * (last.pitch.absolute - first.pitch.absolute)) ∘
      (2 * first.pitch.absolute - ·) = (2 * last.pitch.absolute - ·) := by
    funext number
    simp only [Function.comp_apply]
    omega
  rw [toLine_retrograde] at backwards ⊢
  rw [mapM_renumber_comp (mapM_renumber_retrograde forwards), apart, backwards]

/-- Laws of inversion for music whose line begins with a plain note.  It is refused exactly if the
mirrored number of some plain note of the line is outside the MIDI range.  Else the inversion lasts
as long as the music, and its own inversion has the line of the music, with every plain note spelled
in sharps.  If the line also ends with a plain note, inverting its reversal and reversing its
inversion give lines that are a transposition apart, by twice the distance of those two notes. -/
theorem inversion_laws [Limits] (begins : m.toLine = note first :: others) :
    ((∃ cause, m.invert = .error cause) ↔
      ∃ x, note x ∈ m.toLine ∧
        ¬ (0 ≤ 2 * first.pitch.absolute - x.pitch.absolute ∧
          2 * first.pitch.absolute - x.pitch.absolute ≤ 127)) ∧
    (∀ cause, m.invert = .error cause → cause.isInvalidValue = true ∧
      ∃ x, note x ∈ m.toLine ∧
        cause = .absoluteOutOfRange (2 * first.pitch.absolute - x.pitch.absolute)) ∧
    (∀ t, m.invert = .ok t → t.duration = m.duration ∧
      ∃ u, t.invert = .ok u ∧ m.toLine.mapM (renumber id) = .ok u.toLine) ∧
    ∀ last t u, m.toLine.getLast? = some (note last) →
      m.retroInvert = .ok t → m.invertRetro = .ok u →
        t.toLine.mapM (renumber (· + 2 * (last.pitch.absolute - first.pitch.absolute))) =
          .ok u.toLine := by
  refine ⟨exists_invert_error_iff begins, ?_, ?_, fun last t u => invertRetro_eq begins⟩
  · intro cause refused
    obtain ⟨x, member, rfl⟩ := invert_eq_error begins refused
    exact ⟨isInvalidValue_mirrored first x, x, member, rfl⟩
  · intro t inverted
    exact ⟨duration_invert begins inverted, invert_invert begins inverted⟩

end Inversion

/-- An E flat in the middle octave. -/
def highFlat : Note := ⟨⟨⟨.e, .flat⟩, 4, by decide⟩, .nearest (1 / 4), .ofNote⟩

/-- A B flat below the middle octave. -/
def lowFlat : Note := ⟨⟨⟨.b, .flat⟩, 3, by decide⟩, .nearest (1 / 2), .ofNote⟩

/-- Two voices of different lengths, silence and a transposed passage, before a plain note. -/
def middleParts : List Music :=
  [parallel (quarter .c) (rest (.nearest (3 / 4))), rest (.nearest (1 / 8)),
    modified (.transpose 5) (quarter .g), note lowFlat]

/-- The parts behind the first note and silence of no length. -/
def variedLine : Music := sequential (sequential (note highFlat) (rest 0)) (line middleParts)

open Usual

theorem variedLine_inverted :
    variedLine.toLine = note highFlat :: middleParts ∧
      variedLine.toLine.getLast? = some (note lowFlat) ∧
      (∃ t u, variedLine.invert = .ok t ∧ t.duration = variedLine.duration ∧
        t.invert = .ok u ∧ variedLine.toLine.mapM (renumber id) = .ok u.toLine) ∧
      ∃ t u, variedLine.retroInvert = .ok t ∧ variedLine.invertRetro = .ok u ∧
        t.toLine.mapM (renumber (· + 2 * (58 - 63))) = .ok u.toLine := by
  have alone : ∀ part ∈ middleParts, part.toLine = [part] := by
    simp only [middleParts, List.forall_mem_cons, List.not_mem_nil, false_implies, implies_true,
      and_true]
    exact ⟨toLine_eq_singleton rfl rfl, toLine_eq_singleton rfl (by decide +kernel),
      toLine_eq_singleton rfl rfl, toLine_eq_singleton rfl rfl⟩
  have begins : variedLine.toLine = note highFlat :: middleParts := by
    rw [variedLine, toLine_sequential, toLine_sequential, toLine_line_of_alone alone,
      toLine_of_none (m := note highFlat) rfl, toLine_of_none (m := rest 0) rfl]
    rfl
  have ends : variedLine.toLine.getLast? = some (note lowFlat) := by
    rw [begins]
    rfl
  obtain ⟨-, -, twice, apart⟩ := inversion_laws begins
  obtain ⟨t, inverted⟩ := exists_of_isOk (show variedLine.invert.isOk = true by decide +kernel)
  obtain ⟨v, former⟩ := exists_of_isOk (show variedLine.retroInvert.isOk = true by decide +kernel)
  obtain ⟨w, latter⟩ := exists_of_isOk (show variedLine.invertRetro.isOk = true by decide +kernel)
  obtain ⟨lasts, u, again, same⟩ := twice t inverted
  exact ⟨begins, ends, ⟨t, u, inverted, lasts, again, same⟩, v, w, former, latter,
    apart lowFlat v w ends former latter⟩

end MusicAlgebra.Music
