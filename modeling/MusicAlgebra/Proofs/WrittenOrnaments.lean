import MusicAlgebra.Proofs.Lines
import MusicAlgebra.Proofs.ModifierStacks
import MusicAlgebra.Proofs.TiledEvents
import MusicAlgebra.Score.Ornament

/-!
# Ornaments written into a score

A grace note, a trill and a roll are asked for from outside a stack of modifiers and put a line of
notes in the place of the note inside, under the same modifiers.  The line lasts as long as the note
did, so nothing around it moves.
-/

namespace MusicAlgebra

open Outcome

namespace Amount

theorem val_sum (amounts : List Amount) : (sum amounts).val = (amounts.map val).sum := by
  induction amounts with
  | nil => rfl
  | cons a amounts ih => rw [sum_cons, val_add, ih, List.map_cons, List.sum_cons]

theorem map_val_nearest {lengths : List Rat} (nonneg : ∀ length ∈ lengths, 0 ≤ length) :
    (lengths.map nearest).map val = lengths := by
  rw [List.map_map]
  conv_rhs => rw [← List.map_id' lengths]
  exact List.map_congr_left fun length member => val_nearest (nonneg length member)

theorem times_times (a : Amount) (s t : Scale) : (a.times s).times t = a.times (s * t) :=
  ext (mul_assoc _ _ _)

theorem times_one (a : Amount) : a.times 1 = a := ext (mul_one _)

end Amount

namespace Datum

variable {given : Datum} {q : Rat}

theorem toLength_of_nonneg [Limits] (read : given.toRat "Duration" = .ok q) (nonneg : 0 ≤ q) :
    given.toLength = .ok ⟨q, nonneg⟩ := by
  rw [toLength, read, ok_bind, dif_pos nonneg]

theorem toLength_of_neg [Limits] (read : given.toRat "Duration" = .ok q) (negative : q < 0) :
    given.toLength = .error (.negativeDuration q) := by
  rw [toLength, read, ok_bind, dif_neg negative.not_ge]

end Datum

/-! ## Notes in the place of one -/

namespace Note

variable {n : Note} {interval : Int} {count : Datum} {total : Amount} {lengths : List Amount}

theorem map_length_alternating (n : Note) (other : Pitch) (lengths : List Amount) :
    (n.alternating other lengths).map length = lengths := by
  induction lengths generalizing n other with
  | nil => rfl
  | cons first rest ih => rw [alternating, List.map_cons, ih]

theorem volume_alternating (n : Note) (other : Pitch) (lengths : List Amount) :
    ∀ x ∈ n.alternating other lengths, x.volume = n.volume := by
  induction lengths generalizing n other with
  | nil => simp [alternating]
  | cons first rest ih =>
      rw [alternating, List.forall_mem_cons]
      exact ⟨rfl, ih _ _⟩

theorem pitch_alternating (n : Note) (other : Pitch) (lengths : List Amount) (i : Nat) :
    ∀ x ∈ (n.alternating other lengths)[i]?, x.pitch = if i % 2 = 0 then n.pitch else other := by
  induction lengths generalizing n other i with
  | nil => simp [alternating]
  | cons first rest ih =>
      cases i with
      | zero => simp [alternating]
      | succ i =>
          intro x member
          -- the notes after the first one begin with the other pitch
          rw [alternating, List.getElem?_cons_succ] at member
          rw [ih _ _ i x member]
          by_cases even : i % 2 = 0
          · rw [if_pos even, if_neg (by omega)]
          · rw [if_neg even, if_pos (by omega)]

theorem withGrace_eq_ok [Limits] {offset : Int} {fraction : Datum} {result : Music}
    (graced : n.withGrace offset fraction = .ok result) :
    ∃ grace principal : Note, result = .line [.note grace, .note principal] ∧
      n.pitch.transpose offset = .ok grace.pitch ∧ principal.pitch = n.pitch ∧
      grace.volume = n.volume ∧ principal.volume = n.volume ∧
      grace.length + principal.length = n.length := by
  obtain ⟨q, -, graced⟩ := bind_eq_ok.1 graced
  split at graced
  · obtain ⟨pitch, moved, graced⟩ := bind_eq_ok.1 graced
    cases graced
    refine ⟨_, _, Music.line_pair.symm, moved, rfl, rfl, rfl, ?_⟩
    ext
    simp only [Amount.val_add, Amount.val_mul]
    ring
  · cases graced

theorem trilled_eq_ok [Limits] {request : TrillRequest} {result : Music}
    (trilled : n.trilled request = .ok result) :
    ∃ pieces other, request.pieces n.length = .ok pieces ∧
      n.pitch.transpose request.interval = .ok other ∧
      result = .line ((n.alternating other pieces).map .note) := by
  obtain ⟨pieces, split, trilled⟩ := bind_eq_ok.1 trilled
  obtain ⟨other, moved, trilled⟩ := bind_eq_ok.1 trilled
  exact ⟨pieces, other, split, moved, (Except.ok.inj trilled).symm⟩

namespace TrillRequest

variable {request : TrillRequest}

/-! ## The notes of a trill -/

/-- Where no length is asked for, as many equal notes as are asked for share the total. -/
theorem pieces_of_none [Limits] (divided : pieces ⟨interval, none, count⟩ total = .ok lengths) :
    ∃ k : Nat, 0 < k ∧ count = .int k ∧ lengths.map Amount.val = evenPieces total.val k := by
  cases count with
  | int number =>
      by_cases positive : 0 < number
      · simp only [pieces, Attribute.positiveCount?, dif_pos positive, mapError_eq_ok] at divided
        obtain ⟨rationals, split, rfl⟩ := map_eq_ok.1 divided
        have nonneg := nonneg_of_evenPieces? total.nonneg split
        obtain ⟨many, granted, rfl⟩ := map_eq_ok.1 split
        have exact : many = number.toNat := (partCount_eq_ok granted).1
        refine ⟨many, by omega, by rw [exact, Int.toNat_of_nonneg positive.le], ?_⟩
        exact Amount.map_val_nearest nonneg
      · simp only [pieces, Attribute.positiveCount?, dif_neg positive] at divided
        cases divided
  | _ => simp [pieces, Attribute.positiveCount?] at divided

/-- Where a length is asked for, nothing else is, and notes of that length fill the total. -/
theorem pieces_of_some [Limits] {outcome : Except Rejection Amount}
    (divided : pieces ⟨interval, some outcome, count⟩ total = .ok lengths) :
    count = .null ∧ ∃ d, outcome = .ok d ∧ 0 < d.val ∧
      lengths.map Amount.val = piecesOfLength total.val d.val := by
  cases count with
  | null =>
      obtain ⟨d, given, divided⟩ := bind_eq_ok.1 divided
      split at divided
      · cases divided
      · rename_i lasting
        have positive : 0 < d.val :=
          d.nonneg.lt_of_ne fun none => lasting (Amount.eq_zero_iff.2 none.symm)
        rw [mapError_eq_ok] at divided
        obtain ⟨rationals, split, rfl⟩ := map_eq_ok.1 divided
        have nonneg := nonneg_of_piecesOfLength? positive split
        obtain ⟨many, -, rfl⟩ := map_eq_ok.1 split
        exact ⟨rfl, d, given, positive, Amount.map_val_nearest nonneg⟩
  | _ => simp [pieces] at divided

theorem sum_pieces [Limits] (divided : request.pieces total = .ok lengths) :
    Amount.sum lengths = total := by
  obtain ⟨interval, length, count⟩ := request
  ext
  rw [Amount.val_sum]
  cases length with
  | none =>
      obtain ⟨k, positive, -, even⟩ := pieces_of_none divided
      rw [even, sum_evenPieces total.val positive]
  | some outcome =>
      obtain ⟨-, d, -, positive, measured⟩ := pieces_of_some divided
      rw [measured, sum_piecesOfLength total.nonneg positive]

/-! ## Requests below modifiers -/

/-- The request as it is made where music is played faster. -/
def hastened (scale : Scale) (request : TrillRequest) : TrillRequest :=
  { request with length := request.length.map fun outcome => (·.times scale) <$> outcome }

/-- No length is asked for that cannot be read. -/
def Readable (request : TrillRequest) : Prop := ∀ cause, request.length ≠ some (.error cause)

theorem hastened_one (request : TrillRequest) : request.hastened 1 = request := by
  obtain ⟨interval, _ | _ | length, count⟩ := request
  · rfl
  · rfl
  · simp [hastened, Amount.times_one]

theorem hastened_hastened (request : TrillRequest) (s t : Scale) :
    (request.hastened s).hastened t = request.hastened (s * t) := by
  obtain ⟨interval, _ | _ | length, count⟩ := request
  · rfl
  · rfl
  · simp [hastened, Amount.times_times]

theorem Readable.hastened (readable : request.Readable) (scale : Scale) :
    (request.hastened scale).Readable := by
  obtain ⟨interval, _ | cause | length, count⟩ := request
  · exact readable
  · exact absurd rfl (readable cause)
  · intro cause unreadable
    cases unreadable

/-! ## Unchecked requests -/

/-- The request that unchecked arguments make, null meaning not given. -/
def ofData [Limits] (interval : Int) (length count : Datum) : TrillRequest where
  interval
  length := match length with
    | .null => none
    | length => some length.toLength
  count

theorem ofData_of_ne_null [Limits] {length : Datum} (given : length ≠ .null) (interval : Int)
    (count : Datum) :
    ofData interval length count = ⟨interval, some length.toLength, count⟩ := by
  cases length with
  | null => exact absurd rfl given
  | _ => rfl

/-- What the lengths of a trill are, by the arguments and the pace at which the note is played. -/
theorem pieces_ofData [Limits] {length : Datum} {scale : Scale}
    (divided : ((ofData interval length count).hastened scale).pieces total = .ok lengths) :
    (length = .null → ∃ k : Nat, 0 < k ∧ count = .int k ∧
        lengths.map Amount.val = evenPieces total.val k) ∧
      (length ≠ .null → count = .null ∧ ∃ d, length.toLength = .ok d ∧ 0 < d.val ∧
        lengths.map Amount.val = piecesOfLength total.val (d.val * scale.val)) := by
  constructor
  · rintro rfl
    exact pieces_of_none divided
  · intro given
    rw [ofData_of_ne_null given] at divided
    obtain ⟨absent, inside, hastened, positive, measured⟩ := pieces_of_some divided
    obtain ⟨d, outside, rfl⟩ := map_eq_ok.1 hastened
    exact ⟨absent, d, outside, pos_of_mul_pos_left positive scale.pos.le, measured⟩

end TrillRequest

end Note

namespace Music

open Modifier

variable {m result : Music} {n : Note} {notes : List Note} {request : Note.TrillRequest}

/-! ## Ornaments below modifiers -/

theorem graceNote_under [Limits] (stack : List Modifier) (m : Music) (offset : Int)
    (fraction : Datum) :
    (under stack m).graceNote offset fraction = under stack <$> m.graceNote offset fraction := by
  induction stack with
  | nil =>
      rw [under_nil]
      cases m.graceNote offset fraction <;> rfl
  | cons modifier stack ih =>
      rw [under_cons, graceNote, ih]
      cases m.graceNote offset fraction <;> rfl

theorem trillWith_modified [Limits] (readable : request.Readable) (modifier : Modifier)
    (m : Music) :
    (modified modifier m).trillWith request =
      modified modifier <$> m.trillWith (request.hastened modifier.haste) := by
  cases modifier with
  | tempo scale =>
      obtain ⟨interval, _ | cause | length, count⟩ := request
      · rfl
      · exact absurd rfl (readable cause)
      · rfl
  | _ =>
      change _ = modified _ <$> m.trillWith (request.hastened 1)
      rw [Note.TrillRequest.hastened_one]
      rfl

theorem trillWith_under [Limits] (readable : request.Readable) (stack : List Modifier) (m : Music) :
    (under stack m).trillWith request =
      under stack <$> m.trillWith (request.hastened (hasteAll stack)) := by
  induction stack generalizing request with
  | nil =>
      rw [under_nil, hasteAll_nil, Note.TrillRequest.hastened_one]
      cases m.trillWith request <;> rfl
  | cons modifier stack ih =>
      rw [under_cons, trillWith_modified readable, ih (readable.hastened _),
        Note.TrillRequest.hastened_hastened, hasteAll_cons]
      cases m.trillWith _ <;> rfl

/-- A length that cannot be read spoils a trill of a note, wherever it is refused. -/
theorem trillWith_ne_ok [Limits] {cause : Rejection}
    (unreadable : request.length = some (.error cause))
    (m : Music) : m.trillWith request ≠ .ok result := by
  induction m generalizing result with
  | note n =>
      intro trilled
      obtain ⟨pieces, other, divided, -⟩ := Note.trilled_eq_ok trilled
      obtain ⟨interval, length, count⟩ := request
      cases unreadable
      obtain ⟨-, d, given, -⟩ := Note.TrillRequest.pieces_of_some divided
      cases given
  | modified modifier inner ih =>
      intro trilled
      cases modifier with
      | tempo scale => simp [trillWith, unreadable] at trilled
      | _ =>
          obtain ⟨inside, trilled, -⟩ := map_eq_ok.1 trilled
          exact ih trilled
  | _ =>
      intro trilled
      cases trilled

/-! ## Music without a note below its modifiers -/

theorem graceNote_without_note [Limits] (bare : ∀ n, m.innermost ≠ note n) (offset : Int)
    (fraction : Datum) : m.graceNote offset fraction = .error .graceWithoutNote := by
  induction m with
  | note n => exact absurd rfl (bare n)
  | modified modifier inner ih => rw [graceNote, ih bare, map_error]
  | _ => rfl

theorem trillWith_without_note [Limits] (bare : ∀ n, m.innermost ≠ note n)
    (readable : request.Readable) :
    m.trillWith request = .error .trillWithoutNote := by
  induction m generalizing request with
  | note n => exact absurd rfl (bare n)
  | modified modifier inner ih =>
      rw [trillWith_modified readable, ih bare (readable.hastened _), map_error]
  | _ => rfl

/-- A length is read as soon as there is a tempo that changes it. -/
theorem trillWith_unreadable [Limits] (bare : ∀ n, m.innermost ≠ note n) (interval : Int)
    (cause : Rejection) (count : Datum) :
    m.trillWith ⟨interval, some (.error cause), count⟩ = .error cause ∧
        (∃ scale, .tempo scale ∈ m.stack) ∨
      m.trillWith ⟨interval, some (.error cause), count⟩ = .error .trillWithoutNote ∧
        ∀ scale, .tempo scale ∉ m.stack := by
  induction m with
  | note n => exact absurd rfl (bare n)
  | modified modifier inner ih =>
      cases modifier with
      | tempo scale =>
          left
          exact ⟨rfl, scale, List.mem_cons_self⟩
      | _ =>
          rcases ih bare with ⟨refused, scale, member⟩ | ⟨refused, steady⟩
          · left
            exact ⟨map_eq_error.2 refused, scale, List.mem_cons_of_mem _ member⟩
          · right
            refine ⟨map_eq_error.2 refused, fun scale member => ?_⟩
            rcases List.mem_cons.1 member with same | member
            · cases same
            · exact steady scale member
  | _ =>
      right
      exact ⟨rfl, fun scale member => by cases member⟩

/-- A trill is refused for want of a note, or because a tempo on the way reads a length that turns
out to be negative.  The user gets a report of it, unless that length takes too many digits. -/
def RefusesTrill [Limits] (m : Music) (length : Datum) (outcome : Except Rejection Music) : Prop :=
  ∃ cause, outcome = .error cause ∧
    (cause = .trillWithoutNote ∨ ∃ q, cause = .negativeDuration q) ∧
    (cause.isInvalidValue = false ↔
      ∃ q, length.toRat "Duration" = .ok q ∧ q < 0 ∧ Number.isWritable q = false ∧
        ∃ scale, .tempo scale ∈ m.stack)

theorem refusesTrill_of_withoutNote [Limits] {length : Datum} {outcome : Except Rejection Music}
    (refused : outcome = .error .trillWithoutNote)
    (readable : ∀ q scale, length.toRat "Duration" = .ok q → q < 0 → .tempo scale ∉ m.stack) :
    m.RefusesTrill length outcome := by
  refine ⟨.trillWithoutNote, refused, .inl rfl, ?_⟩
  constructor
  · intro silent
    cases silent
  · rintro ⟨q, read, negative, -, scale, member⟩
    exact absurd member (readable q scale read negative)

theorem trill_eq [Limits] (m : Music) (interval : Int) (length count : Datum) :
    m.trill interval length count = m.trillWith (.ofData interval length count) := rfl

theorem trill_of_read [Limits] {length : Datum} {q : Rat} (read : length.toRat "Duration" = .ok q)
    (m : Music) (interval : Int) (count : Datum) :
    m.trill interval length count = m.trillWith ⟨interval, some length.toLength, count⟩ := by
  have given : length ≠ .null := by
    rintro rfl
    cases read
  rw [trill_eq, Note.TrillRequest.ofData_of_ne_null given]

/-- A negative length is the cause if there is a tempo on the way, otherwise nobody reads it. -/
theorem refusesTrill_of_neg [Limits] {length : Datum} {q : Rat} (bare : ∀ n, m.innermost ≠ note n)
    (read : length.toRat "Duration" = .ok q) (negative : q < 0) (interval : Int)
    (count : Datum) : m.RefusesTrill length (m.trill interval length count) := by
  rw [trill_of_read read, Datum.toLength_of_neg read negative]
  rcases trillWith_unreadable bare interval (.negativeDuration q) count with
    ⟨outcome, scale, member⟩ | ⟨outcome, steady⟩
  · refine ⟨_, outcome, .inr ⟨q, rfl⟩, ?_⟩
    constructor
    · intro unwritable
      exact ⟨q, read, negative, unwritable, scale, member⟩
    · rintro ⟨q', read', -, unwritable, -⟩
      cases read.symm.trans read'
      exact unwritable
  · exact refusesTrill_of_withoutNote outcome fun _ scale _ _ => steady scale

theorem refusesTrill_of_nonneg [Limits] {length : Datum} {q : Rat}
    (bare : ∀ n, m.innermost ≠ note n)
    (read : length.toRat "Duration" = .ok q) (nonneg : 0 ≤ q) (interval : Int)
    (count : Datum) : m.RefusesTrill length (m.trill interval length count) := by
  rw [trill_of_read read, Datum.toLength_of_nonneg read nonneg]
  apply refusesTrill_of_withoutNote
  · exact trillWith_without_note bare fun cause unreadable => by cases unreadable
  · intro q' scale read' negative
    cases read.symm.trans read'
    exact absurd negative nonneg.not_gt

theorem refusesTrill [Limits] {length : Datum} (bare : ∀ n, m.innermost ≠ note n)
    (given : length = .null ∨ ∃ q, length.toRat "Duration" = .ok q) (interval : Int)
    (count : Datum) : m.RefusesTrill length (m.trill interval length count) := by
  rcases given with rfl | ⟨q, read⟩
  · apply refusesTrill_of_withoutNote
    · exact trillWith_without_note bare fun cause unreadable => by cases unreadable
    · intro q scale read
      cases read
  · rcases lt_or_ge q 0 with negative | nonneg
    · exact refusesTrill_of_neg bare read negative interval count
    · exact refusesTrill_of_nonneg bare read nonneg interval count

/-! ## Ornamented music -/

/-- What an ornament makes of music that is a note below its modifiers: notes as loud as that one
stand in its place, one after the other, and nothing gets longer or shorter. -/
structure Ornamented (m : Music) (n : Note) (notes : List Note) (result : Music) : Prop where
  shape : result = under m.stack (line (notes.map note))
  lasts : result.duration = m.duration
  volumes : ∀ x ∈ notes, x.volume = n.volume

/-- What a trill makes of it.  The notes alternate between the written pitch and the one some
semitones away.  Either their number is asked for, and they are equal, or their length is, which is
passed on to the note in the time that passes there. -/
structure Trilled [Limits] (m : Music) (n : Note) (interval : Int) (length count : Datum)
    (notes : List Note) (result : Music) : Prop extends Ornamented m n notes result where
  alternates : ∃ other, n.pitch.transpose interval = .ok other ∧
    ∀ i, ∀ x ∈ notes[i]?, x.pitch = if i % 2 = 0 then n.pitch else other
  equal : length = .null → ∃ k : Nat, 0 < k ∧ count = .int k ∧
    notes.map (·.length.val) = List.replicate k (n.length.val / k)
  measured : length ≠ .null → count = .null ∧ ∃ d, length.toLength = .ok d ∧ 0 < d.val ∧
    Measured (d.val * (hasteAll m.stack).val) (notes.map (·.length.val))

theorem ornamented_under (written : m.innermost = note n)
    (total : Amount.sum (notes.map Note.length) = n.length)
    (volumes : ∀ x ∈ notes, x.volume = n.volume) :
    Ornamented m n notes (under m.stack (line (notes.map note))) := by
  refine ⟨rfl, ?_, volumes⟩
  have inside : (line (notes.map note)).duration = (note n).duration := by
    rw [duration_line, List.map_map, duration_note, ← total]
    exact congrArg Amount.sum (List.map_congr_left fun x _ => duration_note x)
  rw [duration_under, inside, ← written, ← duration_under, under_stack_innermost]

theorem exists_ornamented_of_graceNote [Limits] {offset : Int} {fraction : Datum}
    (written : m.innermost = note n) (graced : m.graceNote offset fraction = .ok result) :
    ∃ grace principal, Ornamented m n [grace, principal] result ∧
      n.pitch.transpose offset = .ok grace.pitch ∧ principal.pitch = n.pitch := by
  rw [← under_stack_innermost m, graceNote_under, written] at graced
  obtain ⟨inside, decorated, rfl⟩ := map_eq_ok.1 graced
  obtain ⟨grace, principal, rfl, moved, kept, soft, loud, total⟩ :=
    Note.withGrace_eq_ok decorated
  refine ⟨grace, principal, ornamented_under written ?_ ?_, moved, kept⟩
  · simpa using total
  · simp [soft, loud]

/-- A trill that succeeds is the trill of the note, asked for in the time that passes there. -/
theorem trillWith_eq_ok [Limits] (written : m.innermost = note n)
    (trilled : m.trillWith request = .ok result) :
    ∃ pieces other, (request.hastened (hasteAll m.stack)).pieces n.length = .ok pieces ∧
      n.pitch.transpose request.interval = .ok other ∧
      result = under m.stack (line ((n.alternating other pieces).map note)) := by
  have readable : request.Readable := fun cause unreadable =>
    trillWith_ne_ok unreadable m trilled
  rw [← under_stack_innermost m, trillWith_under readable, written] at trilled
  obtain ⟨inside, alternating, rfl⟩ := map_eq_ok.1 trilled
  obtain ⟨pieces, other, divided, moved, rfl⟩ := Note.trilled_eq_ok alternating
  exact ⟨pieces, other, divided, moved, rfl⟩

theorem exists_trilled_of_trill [Limits] {interval : Int} {length count : Datum}
    (written : m.innermost = note n) (trilled : m.trill interval length count = .ok result) :
    ∃ notes, Trilled m n interval length count notes result := by
  rw [trill_eq] at trilled
  obtain ⟨lengths, other, divided, moved, rfl⟩ := trillWith_eq_ok written trilled
  have lasting := n.map_length_alternating other lengths
  have total : Amount.sum ((n.alternating other lengths).map Note.length) = n.length := by
    rw [lasting, Note.TrillRequest.sum_pieces divided]
  have rationals : (n.alternating other lengths).map (·.length.val) = lengths.map Amount.val := by
    conv_rhs => rw [← lasting, List.map_map]
    rfl
  obtain ⟨counted, measured⟩ := Note.TrillRequest.pieces_ofData divided
  refine ⟨_, ornamented_under written total (n.volume_alternating other lengths),
    ⟨other, moved, n.pitch_alternating other lengths⟩, ?_, ?_⟩
  · intro absent
    rw [rationals]
    exact counted absent
  · intro given
    obtain ⟨absent, d, read, positive, pieces⟩ := measured given
    rw [rationals, pieces]
    exact ⟨absent, d, read, positive,
      measured_piecesOfLength _ (mul_pos positive (hasteAll m.stack).pos)⟩

/-- Ornaments keep time.  Whatever a note is put under, a grace note, a trill or a roll that
succeeds puts a line of notes, as loud as it, under the same modifiers, and the music lasts as long
as before; the notes of a trill alternate and are equal, but for a shorter one at the end if it is
their length that is asked for.  Music without a note below its modifiers is refused. -/
theorem ornaments_keep_time [Limits] (m : Music) (offset interval : Int)
    (fraction length count : Datum) :
    (∀ n, m.innermost = note n →
      (∀ result, m.graceNote offset fraction = .ok result →
        ∃ grace principal, Ornamented m n [grace, principal] result ∧
          n.pitch.transpose offset = .ok grace.pitch ∧ principal.pitch = n.pitch) ∧
      (∀ result, m.trill interval length count = .ok result →
        ∃ notes, Trilled m n interval length count notes result) ∧
      ∀ result, m.roll length count = .ok result →
        ∃ notes, Trilled m n 0 length count notes result) ∧
    ((∀ n, m.innermost ≠ note n) →
      m.graceNote offset fraction = .error .graceWithoutNote ∧
      ((length = .null ∨ ∃ q, length.toRat "Duration" = .ok q) →
        m.RefusesTrill length (m.trill interval length count) ∧
          m.RefusesTrill length (m.roll length count))) := by
  constructor
  · intro n written
    exact ⟨fun _ => exists_ornamented_of_graceNote written,
      fun _ => exists_trilled_of_trill written, fun _ => exists_trilled_of_trill written⟩
  · intro bare
    exact ⟨graceNote_without_note bare offset fraction, fun given =>
      ⟨refusesTrill bare given interval count, refusesTrill bare given 0 count⟩⟩

def wholeNote : Note := ⟨⟨⟨.c, .natural⟩, 4, natural_inRange .c⟩, .nearest 1, .ofNote⟩

/-- A note that is played faster and slows down. -/
def slowingNote : Music :=
  modified (.tempo ⟨2, two_pos⟩)
    (modified (.phrase [.ritardando (.nearest 1)]) (note wholeNote))

/-- Silence that is played faster. -/
def hurriedSilence : Music := modified (.tempo ⟨2, two_pos⟩) (rest (.nearest 1))

section

open Usual

theorem slowingNote_keeps_time :
    slowingNote.innermost = note wholeNote ∧ (∀ n, hurriedSilence.innermost ≠ note n) ∧
      (∃ result grace principal, slowingNote.graceNote (-1) (.text "1/8") = .ok result ∧
        Ornamented slowingNote wholeNote [grace, principal] result) ∧
      (∃ result notes, slowingNote.trill 2 .null (.int 3) = .ok result ∧
        Trilled slowingNote wholeNote 2 .null (.int 3) notes result) ∧
      (∃ result notes, slowingNote.roll (.text "3/8") .null = .ok result ∧
        Trilled slowingNote wholeNote 0 (.text "3/8") .null notes result) ∧
      hurriedSilence.graceNote (-1) (.text "1/8") = .error .graceWithoutNote ∧
      hurriedSilence.RefusesTrill (.int (-1)) (hurriedSilence.trill 2 (.int (-1)) (.int 3)) := by
  have bare : ∀ n, hurriedSilence.innermost ≠ note n := by
    intro n same
    cases same
  obtain ⟨result, graced⟩ := exists_of_isOk (show
    (slowingNote.graceNote (-1) (.text "1/8")).isOk = true by decide +kernel)
  obtain ⟨counted, trilled⟩ := exists_of_isOk (show
    (slowingNote.trill 2 .null (.int 3)).isOk = true by decide +kernel)
  obtain ⟨measured, rolled⟩ := exists_of_isOk (show
    (slowingNote.roll (.text "3/8") .null).isOk = true by decide +kernel)
  have byNumber := (ornaments_keep_time slowingNote (-1) 2 (.text "1/8") .null (.int 3)).1 _ rfl
  have byLength :=
    (ornaments_keep_time slowingNote (-1) 2 (.text "1/8") (.text "3/8") .null).1 _ rfl
  have refused := (ornaments_keep_time hurriedSilence (-1) 2 (.text "1/8") (.int (-1)) (.int 3)).2
    bare
  obtain ⟨grace, principal, ornamented, -⟩ := byNumber.1 result graced
  obtain ⟨threeNotes, equal⟩ := byNumber.2.1 counted trilled
  obtain ⟨notes, shortened⟩ := byLength.2.2 measured rolled
  exact ⟨rfl, bare, ⟨result, grace, principal, graced, ornamented⟩,
    ⟨counted, threeNotes, trilled, equal⟩, ⟨measured, notes, rolled, shortened⟩, refused.1,
    (refused.2 (.inr ⟨-1, rfl⟩)).1⟩

/-- A negative length of 4301 digits is refused because of a tempo, but not in words. -/
theorem hurriedSilence_speechless :
    (∀ n, hurriedSilence.innermost ≠ note n) ∧
      (Datum.text "-1e4300").toRat "Duration" = .ok (-10 ^ 4300) ∧
      ∃ cause, hurriedSilence.trill 0 (.text "-1e4300") .null = .error cause ∧
        cause.isInvalidValue = false := by
  have bare : ∀ n, hurriedSilence.innermost ≠ note n := by
    intro n same
    cases same
  have read : (Datum.text "-1e4300").toRat "Duration" = .ok (-10 ^ 4300) := by
    apply eq_ok_of_toOption
    decide +kernel
  obtain ⟨cause, refused, -, silent⟩ := refusesTrill bare (.inr ⟨_, read⟩) 0 .null
  have negative : (-10 ^ 4300 : Rat) < 0 := by decide +kernel
  have unwritable : Number.isWritable (-10 ^ 4300) = false := by decide +kernel
  exact ⟨bare, read, cause, refused,
    silent.2 ⟨_, read, negative, unwritable, _, List.mem_cons_self⟩⟩

end

/-! ## Trilled notes as they are measured from outside -/

/-- If a length is asked for, nothing else is, and the length is not zero. -/
theorem Trilled.asked [Limits] {interval : Int} {length count : Datum} {d : Amount}
    (trilled : Trilled m n interval length count notes result) (read : length.toLength = .ok d) :
    count = .null ∧ 0 < d.val ∧
      Measured (d.val * (hasteAll m.stack).val) (notes.map (·.length.val)) := by
  have given : length ≠ .null := by
    rintro rfl
    cases read
  obtain ⟨absent, d', read', positive, measured⟩ := trilled.measured given
  cases read.symm.trans read'
  exact ⟨absent, positive, measured⟩

/-- The conversion on the way to the note undoes the tempos on the way back, but not the phrases. -/
theorem Trilled.measured_outward [Limits] {interval : Int} {length count : Datum} {d : Amount}
    (trilled : Trilled m n interval length count notes result) (read : length.toLength = .ok d) :
    Measured (d.val * (broadeningAll m.stack).val)
      (notes.map fun x => (under m.stack (note x)).duration.val) := by
  obtain ⟨-, -, measured⟩ := trilled.asked read
  have broad := (broadeningAll m.stack).pos
  have hasty := (hasteAll m.stack).pos
  have outside : ∀ x : Note, (under m.stack (note x)).duration.val =
      x.length.val * ((broadeningAll m.stack).val / (hasteAll m.stack).val) := by
    intro x
    rw [duration_under, duration_note, val_outwardAll, mul_div_assoc]
  have unit : d.val * (hasteAll m.stack).val *
      ((broadeningAll m.stack).val / (hasteAll m.stack).val) =
        d.val * (broadeningAll m.stack).val := by
    field_simp
  have outward := measured.map_mul (div_pos broad hasty)
  rw [unit, List.map_map] at outward
  simp only [outside]
  exact outward

/-- Trilled notes are measured from outside as far as tempos go: all notes but a shorter last one
have the length that has been asked for, multiplied by the factor of every phrase on the way.  So
they have that length itself if the phrases leave the whole as long as it is, and, where there are
two notes or more, only then. -/
theorem trill_measured_outward [Limits] {interval : Int} {length count : Datum} {d : Amount}
    (written : m.innermost = note n) (read : length.toLength = .ok d)
    (trilled : m.trill interval length count = .ok result) :
    ∃ notes : List Note, result = under m.stack (line (notes.map note)) ∧ 0 < d.val ∧
      Measured (d.val * (broadeningAll m.stack).val)
        (notes.map fun x => (under m.stack (note x)).duration.val) ∧
      (broadeningAll m.stack = 1 →
        Measured d.val (notes.map fun x => (under m.stack (note x)).duration.val)) ∧
      (2 ≤ notes.length →
        Measured d.val (notes.map fun x => (under m.stack (note x)).duration.val) →
          broadeningAll m.stack = 1) := by
  obtain ⟨notes, replaced⟩ := exists_trilled_of_trill written trilled
  have measured := replaced.measured_outward read
  obtain ⟨-, positive, -⟩ := replaced.asked read
  refine ⟨notes, replaced.shape, positive, measured, fun steady => ?_, fun some exact => ?_⟩
  · rwa [steady, Scale.val_one, mul_one] at measured
  · have same := measured.unique exact (by rwa [List.length_map])
    exact Scale.ext ((mul_eq_left₀ positive.ne').1 same)

open Usual

theorem slowingNote_measured :
    slowingNote.innermost = note wholeNote ∧
      (Datum.text "3/8").toLength = .ok (.nearest (3 / 8)) ∧
      ∃ (result : Music) (notes : List Note),
        slowingNote.trill 2 (.text "3/8") .null = .ok result ∧
          result = under slowingNote.stack (line (notes.map note)) ∧
          Measured (3 / 4)
            (notes.map fun x => (under slowingNote.stack (note x)).duration.val) := by
  obtain ⟨result, trilled⟩ := exists_of_isOk (show
    (slowingNote.trill 2 (.text "3/8") .null).isOk = true by decide +kernel)
  have read : (Datum.text "3/8").toLength = .ok (.nearest (3 / 8)) := by
    apply eq_ok_of_toOption
    decide +kernel
  have unit : (Amount.nearest (3 / 8)).val * (broadeningAll slowingNote.stack).val = 3 / 4 := by
    decide +kernel
  obtain ⟨notes, shape, -, measured, -⟩ := trill_measured_outward rfl read trilled
  rw [unit] at measured
  exact ⟨rfl, read, result, notes, trilled, shape, measured⟩

/-- A whole note that slows down until it lasts twice as long. -/
def broadNote : Music := modified (.phrase [.ritardando (.nearest 1)]) (note wholeNote)

/-- A whole note that slows down is trilled in half notes where quarter notes are asked for. -/
theorem broadNote_overstretched :
    broadNote.innermost = note wholeNote ∧
      (Datum.text "1/4").toLength = .ok (.nearest (1 / 4)) ∧
      ∃ notes : List Note,
        broadNote.trill 2 (.text "1/4") .null =
          .ok (under broadNote.stack (line (notes.map note))) ∧
        (notes.map fun x => (under broadNote.stack (note x)).duration.val) =
          List.replicate 4 (1 / 2) := by
  have read : (Datum.text "1/4").toLength = .ok (.nearest (1 / 4)) := by
    apply eq_ok_of_toOption
    decide +kernel
  have divided : (Note.TrillRequest.ofData 2 (.text "1/4") .null).pieces wholeNote.length =
      .ok (List.replicate 4 (.nearest (1 / 4))) := by
    apply eq_ok_of_toOption
    decide +kernel
  obtain ⟨other, moved⟩ := exists_of_isOk (show
    (wholeNote.pitch.transpose 2).isOk = true by decide +kernel)
  refine ⟨rfl, read, wholeNote.alternating other (List.replicate 4 (.nearest (1 / 4))), ?_, ?_⟩
  · change modified _ <$> wholeNote.trilled (.ofData 2 (.text "1/4") .null) = _
    rw [Note.trilled, divided, ok_bind]
    change modified _ <$> (wholeNote.pitch.transpose 2 >>= _) = _
    rw [moved]
    rfl
  · have outside : ∀ x : Note, (under broadNote.stack (note x)).duration.val =
        (outwardAll broadNote.stack x.length).val := by
      intro x
      rw [duration_under, duration_note]
    have lengths := wholeNote.map_length_alternating other (List.replicate 4 (.nearest (1 / 4)))
    calc _ = ((wholeNote.alternating other (List.replicate 4 (.nearest (1 / 4)))).map
              Note.length).map fun length => (outwardAll broadNote.stack length).val := by
          rw [List.map_map]
          exact List.map_congr_left fun x _ => outside x
      _ = List.replicate 4 (1 / 2) := by
          rw [lengths]
          decide +kernel

end Music

end MusicAlgebra
