import MusicAlgebra.Proofs.Refusals
import MusicAlgebra.Proofs.TransposedPerformance
import MusicAlgebra.Score.Transformation

/-!
# Rewritten pitches

A passage can be transposed in two ways: by a modifier, which takes effect when the passage is
performed, or by rewriting the pitches of the score.  Rewriting is refused if a note would leave the
MIDI range.  If it is not refused, the two ways cannot be told apart by built-in players, whatever
the phrases of the passage do, and rewriting twice is rewriting once by the sum.

The refusal quotes the number that the pitch would have.  It is a refusal that can be told only if
that number can be written, and a shift may be so large that it cannot.
-/

namespace MusicAlgebra

open Outcome

variable {n : Int} {players : Registry} {c : Context}

/-- Whether the pitch of a note leaves the MIDI range when it is moved by semitones. -/
def Note.outlies (n : Int) (written : Note) : Bool :=
  !decide (0 ≤ written.pitch.absolute + n ∧ written.pitch.absolute + n ≤ 127)

theorem Pitch.transpose_of_outlies {written : Note} (outlies : written.outlies n = true) :
    written.pitch.transpose n = .error (.absoluteOutOfRange (written.pitch.absolute + n)) := by
  rw [Note.outlies, Bool.not_eq_true', decide_eq_false_iff_not] at outlies
  rw [transpose, ofAbsolute, dif_neg outlies]

theorem Pitch.exists_transpose {written : Note} (inside : written.outlies n = false) :
    ∃ pitch, written.pitch.transpose n = .ok pitch := by
  rw [Note.outlies, Bool.not_eq_false', decide_eq_true_eq] at inside
  rw [transpose, ofAbsolute, dif_pos inside]
  exact ⟨_, rfl⟩

namespace Music

/-! ## Refusals -/

/-- The first note of the score that leaves the MIDI range. -/
def outlier? (n : Int) (m : Music) : Option Note := m.notes.find? (Note.outlies n)

theorem exists_outlier {m : Music} :
    (∃ x, m.outlier? n = some x) ↔
      ∃ x ∈ m.notes, ¬ (0 ≤ x.pitch.absolute + n ∧ x.pitch.absolute + n ≤ 127) := by
  rw [← Option.isSome_iff_exists, outlier?, List.find?_isSome]
  simp only [Note.outlies, Bool.not_eq_true', decide_eq_false_iff_not]

/-- Passages are looked at from left to right. -/
theorem outlier?_sequential (left right : Music) :
    (sequential left right).outlier? n = (left.outlier? n).or (right.outlier? n) :=
  List.find?_append

theorem outlier?_parallel (left right : Music) :
    (parallel left right).outlier? n = (left.outlier? n).or (right.outlier? n) :=
  List.find?_append

theorem exists_transposePitches {m : Music} (inside : m.outlier? n = none) :
    ∃ t, m.transposePitches n = .ok t := by
  induction m with
  | note written =>
      have within : written.outlies n = false := by
        simpa [outlier?] using inside
      obtain ⟨pitch, moved⟩ := Pitch.exists_transpose within
      exact ⟨note { written with pitch }, by rw [transposePitches, moved]; rfl⟩
  | rest length => exact ⟨rest length, rfl⟩
  | sequential left right leftIH rightIH =>
      rw [outlier?_sequential, Option.or_eq_none_iff] at inside
      obtain ⟨first, firstOk⟩ := leftIH inside.1
      obtain ⟨second, secondOk⟩ := rightIH inside.2
      exact ⟨sequential first second, by rw [transposePitches, firstOk, secondOk]; rfl⟩
  | parallel left right leftIH rightIH =>
      rw [outlier?_parallel, Option.or_eq_none_iff] at inside
      obtain ⟨first, firstOk⟩ := leftIH inside.1
      obtain ⟨second, secondOk⟩ := rightIH inside.2
      exact ⟨parallel first second, by rw [transposePitches, firstOk, secondOk]; rfl⟩
  | modified modifier inner ih =>
      obtain ⟨t, rewritten⟩ := ih inside
      exact ⟨modified modifier t, by rw [transposePitches, rewritten]; rfl⟩

/-- The first note that leaves the range is the one that is named. -/
theorem transposePitches_of_outlier {m : Music} {x : Note} (found : m.outlier? n = some x) :
    m.transposePitches n = .error (.absoluteOutOfRange (x.pitch.absolute + n)) := by
  induction m with
  | note written =>
      have outlies : x.outlies n = true := List.find?_some found
      have member := List.mem_of_find?_eq_some found
      rw [notes_note, List.mem_singleton] at member
      subst member
      rw [transposePitches, Pitch.transpose_of_outlies outlies]
      rfl
  | rest length => cases found
  | sequential left right leftIH rightIH =>
      rw [outlier?_sequential, Option.or_eq_some_iff] at found
      rcases found with first | ⟨inside, second⟩
      · rw [transposePitches, leftIH first]
        rfl
      · obtain ⟨t, firstOk⟩ := exists_transposePitches inside
        rw [transposePitches, firstOk, ok_bind, rightIH second]
        rfl
  | parallel left right leftIH rightIH =>
      rw [outlier?_parallel, Option.or_eq_some_iff] at found
      rcases found with first | ⟨inside, second⟩
      · rw [transposePitches, leftIH first]
        rfl
      · obtain ⟨t, firstOk⟩ := exists_transposePitches inside
        rw [transposePitches, firstOk, ok_bind, rightIH second]
        rfl
  | modified modifier inner ih =>
      rw [transposePitches, ih found]
      rfl

theorem transposePitches_eq_error {m : Music} {cause : Rejection} :
    m.transposePitches n = .error cause ↔
      ∃ x, m.outlier? n = some x ∧ cause = .absoluteOutOfRange (x.pitch.absolute + n) := by
  constructor
  · intro refused
    cases found : m.outlier? n with
    | none =>
        obtain ⟨t, rewritten⟩ := exists_transposePitches found
        cases rewritten.symm.trans refused
    | some x =>
        cases (transposePitches_of_outlier found).symm.trans refused
        exact ⟨x, rfl, rfl⟩
  · rintro ⟨x, found, rfl⟩
    exact transposePitches_of_outlier found

/-! ## Rewritten scores -/

/-- A score and what it is after every pitch has been moved by `n` semitones, spelled in whatever
way. -/
inductive Rewritten (n : Int) : Music → Music → Prop where
  | note (written : Note) (pitch : Pitch) (moved : pitch.absolute = written.pitch.absolute + n) :
      Rewritten n (note written) (note { written with pitch })
  | rest (length : Amount) : Rewritten n (rest length) (rest length)
  | sequential {left left' right right' : Music} :
      Rewritten n left left' → Rewritten n right right' →
        Rewritten n (sequential left right) (sequential left' right')
  | parallel {left left' right right' : Music} :
      Rewritten n left left' → Rewritten n right right' →
        Rewritten n (parallel left right) (parallel left' right')
  | modified (modifier : Modifier) {inner inner' : Music} :
      Rewritten n inner inner' → Rewritten n (modified modifier inner) (modified modifier inner')

theorem rewritten_of_transposePitches {m t : Music} (rewritten : m.transposePitches n = .ok t) :
    Rewritten n m t := by
  induction m generalizing t with
  | note written =>
      obtain ⟨pitch, moved, rewritten⟩ := bind_eq_ok.1 rewritten
      cases rewritten
      exact .note written pitch (Pitch.absolute_of_ofAbsolute moved)
  | rest length =>
      cases rewritten
      exact .rest length
  | sequential left right leftIH rightIH =>
      obtain ⟨first, firstOk, rewritten⟩ := bind_eq_ok.1 rewritten
      obtain ⟨second, secondOk, rewritten⟩ := bind_eq_ok.1 rewritten
      cases rewritten
      exact .sequential (leftIH firstOk) (rightIH secondOk)
  | parallel left right leftIH rightIH =>
      obtain ⟨first, firstOk, rewritten⟩ := bind_eq_ok.1 rewritten
      obtain ⟨second, secondOk, rewritten⟩ := bind_eq_ok.1 rewritten
      cases rewritten
      exact .parallel (leftIH firstOk) (rightIH secondOk)
  | modified modifier inner ih =>
      obtain ⟨passage, passageOk, rewritten⟩ := bind_eq_ok.1 rewritten
      cases rewritten
      exact .modified modifier (ih passageOk)

namespace Rewritten

variable {m t : Music}

/-- Rewriting once more is rewriting the original by the sum: the spelling on the way leaves no
trace. -/
theorem transposePitches_add (rewritten : Rewritten n m t) (k : Int) :
    t.transposePitches k = m.transposePitches (n + k) := by
  induction rewritten with
  | note written pitch moved =>
      simp only [transposePitches, Pitch.transpose, moved, Int.add_assoc]
  | rest length => rfl
  | sequential _ _ leftIH rightIH => simp only [transposePitches, leftIH, rightIH]
  | parallel _ _ leftIH rightIH => simp only [transposePitches, leftIH, rightIH]
  | modified modifier _ ih => simp only [transposePitches, ih]

theorem duration_eq (rewritten : Rewritten n m t) : t.duration = m.duration := by
  induction rewritten with
  | note written pitch moved => rw [duration_note, duration_note]
  | rest length => rfl
  | sequential _ _ leftIH rightIH => rw [duration_sequential, duration_sequential, leftIH, rightIH]
  | parallel _ _ leftIH rightIH => rw [duration_parallel, duration_parallel, leftIH, rightIH]
  | modified modifier _ ih => rw [duration_modified, duration_modified, ih]

end Rewritten

end Music

/-! ## Performances -/

/-- A pitch that is moved in the score sounds like one that is moved by the context. -/
theorem Style.playNote_rewritten (style : Style) {written : Note} {pitch : Pitch}
    (moved : pitch.absolute = written.pitch.absolute + n) (c : Context) :
    style.playNote { written with pitch } c = style.playNote written (c.transposed n) := by
  have sounding : written.pitch.absolute + n + c.transposition =
      written.pitch.absolute + (c.transposition + n) := by omega
  rw [playNote, playNote, Context.literalEvent, Context.literalEvent]
  simp only [moved, sounding]
  rfl

/-- Effects do not look at the transposition of the context. -/
theorem Performance.shapeAll_transposed [Limits] (style : Style) (c : Context)
    (attributes : List Attribute)
    (p : Performance) :
    p.shapeAll (.builtIn style) (c.transposed n) attributes =
      p.shapeAll (.builtIn style) c attributes := rfl

namespace Music

open Performance

theorem Rewritten.performPairwise_eq [Limits] {m t : Music} (builtIn : players.BuiltIn)
    (rewritten : Rewritten n m t) (c : Context) :
    t.performPairwise players c = m.performPairwise players (c.transposed n) := by
  induction rewritten generalizing c with
  | note written pitch moved =>
      simp only [performPairwise, Context.transposed_player]
      cases resolved : players.resolve c.player with
      | error failure => rfl
      | ok player =>
          obtain ⟨style, rfl⟩ := builtIn c.player player resolved
          simp only [ok_bind, Player.playNote, style.playNote_rewritten moved]
  | rest length => rfl
  | sequential first _ leftIH rightIH =>
      simp only [performPairwise, leftIH, rightIH, first.duration_eq]
      rfl
  | parallel _ _ leftIH rightIH => simp only [performPairwise, leftIH, rightIH]
  | @modified modifier inner inner' rewritten ih =>
      by_cases phrased : ∃ attributes, modifier = .phrase attributes
      · -- The effects run in the context of the phrase on the one side and in the transposed one on
        -- the other; built-in players do not look at the difference.
        obtain ⟨attributes, rfl⟩ := phrased
        simp only [performPairwise, ih, rewritten.duration_eq, Context.withLoudness_transposed,
          Context.transposed_player]
        cases inner.performPairwise players ((c.withLoudness attributes).transposed n) with
        | error failure => rfl
        | ok passage =>
            cases resolved : players.resolve (c.withLoudness attributes).player with
            | error failure => rfl
            | ok player =>
                obtain ⟨style, rfl⟩ := builtIn _ player resolved
                simp only [ok_bind, shapeAll_transposed]
                rfl
      · have plain := not_exists.1 phrased
        rw [performPairwise_modified players inner _ plain,
          performPairwise_modified players inner' _ plain, Context.under_transposed]
        cases c.under players modifier with
        | error failure => rfl
        | ok inside => exact ih inside

theorem Rewritten.perform_eq [Limits] {m t : Music} (builtIn : players.BuiltIn)
    (rewritten : Rewritten n m t) (moving : 0 < c.tempo) :
    t.perform players c = (Music.modified (.transpose n) m).perform players c := by
  have ordered := builtIn.playsInOrder
  have shifted : m.perform players (c.transposed n) =
      (fun passage => ⟨passage, m.duration.val / c.tempo⟩) <$>
        m.performPairwise players (c.transposed n) :=
    perform_eq_pairwise ordered m moving
  rw [perform_modified players m c (by simp), perform_eq_pairwise ordered t moving,
    rewritten.performPairwise_eq builtIn, rewritten.duration_eq, ← shifted]
  rfl

/-- Rewriting pitches is transposing.  Rewriting by `n` semitones is refused exactly if some note
would leave the MIDI range; the first such note in reading order is named, and its number can be
written unless the shift is absurdly large.  A score that has been rewritten is performed, failures
included, as the score under a transposition is, and can be rewritten again as if the original were
rewritten by the sum. -/
theorem transposePitches_performed [Limits] (builtIn : players.BuiltIn) (m : Music)
    (moving : 0 < c.tempo)
    (n : Int) :
    ((∃ cause, m.transposePitches n = .error cause) ↔
        ∃ x ∈ m.notes, ¬ (0 ≤ x.pitch.absolute + n ∧ x.pitch.absolute + n ≤ 127)) ∧
      (∀ cause, m.transposePitches n = .error cause ↔
        ∃ x, m.outlier? n = some x ∧ cause = .absoluteOutOfRange (x.pitch.absolute + n)) ∧
      (Number.isShort (n.natAbs + 127) = true →
        ∀ cause, m.transposePitches n = .error cause → cause.isInvalidValue = true) ∧
      (∀ t, m.transposePitches n = .ok t →
        t.perform players c = (modified (.transpose n) m).perform players c ∧
          (Operand.music t).perform players c =
            (Operand.music (modified (.transpose n) m)).perform players c) ∧
      ∀ k t u, m.transposePitches n = .ok t → t.transposePitches k = .ok u →
        m.transposePitches (n + k) = .ok u := by
  refine ⟨?_, fun cause => transposePitches_eq_error, ?_, ?_, ?_⟩
  · rw [← exists_outlier]
    constructor
    · rintro ⟨cause, refused⟩
      obtain ⟨x, found, -⟩ := transposePitches_eq_error.1 refused
      exact ⟨x, found⟩
    · rintro ⟨x, found⟩
      exact ⟨_, transposePitches_of_outlier found⟩
  · intro small cause refused
    obtain ⟨x, -, rfl⟩ := transposePitches_eq_error.1 refused
    have near : (x.pitch.absolute + n).natAbs ≤ n.natAbs + 127 := by
      have low := x.pitch.absolute_nonneg
      have high := x.pitch.absolute_le
      omega
    rw [Rejection.isInvalidValue_absoluteOutOfRange, Number.isWritable_intCast]
    exact Number.isShort_of_le near small
  · intro t rewritten
    have same := (rewritten_of_transposePitches rewritten).perform_eq (c := c) builtIn moving
    exact ⟨same, by rw [Operand.perform, Operand.perform, same]⟩
  · intro k t u rewritten again
    rw [← (rewritten_of_transposePitches rewritten).transposePitches_add, again]

/-- A rolled chord with mordents, of a C flat and a B sharp: their octaves are not those in which
they sound. -/
def crossedOctaves : Music :=
  modified (.phrase [.mordent, .arpeggioDown])
    (parallel
      (note ⟨⟨⟨.c, .flat⟩, 4, by decide⟩, .nearest (1 / 4), .ofNote⟩)
      (note ⟨⟨⟨.b, .sharp⟩, 4, by decide⟩, .nearest (1 / 4), .ofNote⟩))

open Usual

theorem crossedOctaves_performed :
    ringingPlayers.BuiltIn ∧ 0 < ({} : Context).tempo ∧
      (∃ t u p, crossedOctaves.transposePitches 5 = .ok t ∧
        (modified (.transpose 5) crossedOctaves).perform ringingPlayers {} = .ok p ∧
        t.perform ringingPlayers {} = .ok p ∧
        t.transposePitches (-7) = .ok u ∧ crossedOctaves.transposePitches (-2) = .ok u) ∧
      Number.isShort ((5 : Int).natAbs + 127) = true ∧
      crossedOctaves.transposePitches 60 = .error (.absoluteOutOfRange 132) := by
  have moving : 0 < ({} : Context).tempo := by decide +kernel
  have small : Number.isShort ((5 : Int).natAbs + 127) = true := by decide +kernel
  have law := transposePitches_performed (c := {}) ringingPlayers_builtIn crossedOctaves moving
  obtain ⟨u, rewritten⟩ := exists_of_isOk (show
    (crossedOctaves.transposePitches 5 >>= transposePitches (-7)).isOk = true by decide +kernel)
  obtain ⟨t, once, twice⟩ := bind_eq_ok.1 rewritten
  obtain ⟨p, performed⟩ := exists_of_isOk (show
    ((modified (.transpose 5) crossedOctaves).perform ringingPlayers {}).isOk = true by
      decide +kernel)
  obtain ⟨-, -, -, alike, added⟩ := law 5
  have refused := (law 60).2.1 (.absoluteOutOfRange 132)
  refine ⟨ringingPlayers_builtIn, moving, ⟨t, u, p, once, performed, ?_, twice, ?_⟩, small, ?_⟩
  · rw [(alike t once).1, performed]
  · exact added (-7) t u once twice
  · exact refused.2 ⟨_, rfl, rfl⟩

/-- A shift so large that the number of the pitch has too many digits. -/
def farUp : Int := 10 ^ 4300 - 1

/-- Then the refusal cannot be told. -/
theorem untold_refusal :
    ∃ x ∈ (quarter .c).notes, 127 < x.pitch.absolute + farUp ∧
      ∃ cause, (quarter .c).transposePitches farUp = .error cause ∧
        cause.isInvalidValue = false := by
  refine ⟨_, List.mem_singleton_self _, by decide +kernel, _,
    transposePitches_of_outlier (List.find?_cons_of_pos ?_), ?_⟩
  · decide +kernel
  · decide +kernel

end Music

end MusicAlgebra
