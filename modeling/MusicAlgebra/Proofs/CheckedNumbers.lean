import MusicAlgebra.Proofs.RationalLiterals
import MusicAlgebra.Proofs.Refusals
import MusicAlgebra.Proofs.WrittenOrnaments
import MusicAlgebra.Score.Cut
import MusicAlgebra.Score.Transformation
import MusicAlgebra.Settings.Basic

/-!
# Numbers that are checked

Lengths, speeds and amounts are given as data of any kind.  A datum denotes one rational at most.
What is built from it holds exactly that number; it is refused if the number is not admitted there
or if there is none.
-/

namespace MusicAlgebra

open Outcome

theorem Volume.ofInt?_eq_some_iff {n : Int} {volume : Volume} :
    ofInt? n = some volume ↔ n = volume.val := by
  rw [ofInt?]
  constructor
  · intro found
    split at found <;> cases found
    exact (Int.toNat_of_nonneg (by omega)).symm
  · rintro rfl
    exact dif_pos (by omega)

namespace Datum

/-! ## What a datum denotes -/

/-- The exact number that a datum denotes: an integer itself, a finite floating-point number the
number that its bits stand for, a text the number that is written there. -/
inductive Denotes [Limits] : Datum → Rat → Prop where
  | int (n : Int) : Denotes (.int n) n
  | float {x : Float} {negative : Bool} {mantissa : Nat} {exponent : Int}
      (finite : Number.Reading.ofFloat x = .finite negative mantissa exponent) :
      Denotes (.float x) ((if negative then -1 else 1) * mantissa * 2 ^ exponent)
  | text {literal : String} {q : Rat} (written : Number.Literal literal q) :
      Denotes (.text literal) q

/-- An infinite floating-point number. -/
def IsInfinite (given : Datum) : Prop :=
  ∃ x negative, given = .float x ∧ Number.Reading.ofFloat x = .infinite negative

/-- A datum that is refused without a report where a number is wanted: an infinite number, or a
datum that denotes none and holds an integer of too many digits to be quoted. -/
def IsSpeechless [Limits] (given : Datum) : Prop :=
  given.IsInfinite ∨ (∀ q, ¬ given.Denotes q) ∧ given.isWritable = false

/-- A negative length of too many digits to be quoted. -/
def IsSpeechlessLength [Limits] (given : Datum) : Prop :=
  ∃ q < 0, given.Denotes q ∧ Number.isWritable q = false

/-- Why a datum that denotes no number is refused where `what` is wanted. -/
def unread (what : String) : Datum → Rejection
  | .bool value => .notNumeric what (.bool value)
  | .float value =>
    match Number.Reading.ofFloat value with
    | .infinite _ => .infinite
    | _ => .notRational what (.float value)
  | given => .notRational what given

variable {given : Datum} {q r : Rat} {what : String}

theorem twoPow_eq (exponent : Int) : Number.twoPow exponent = 2 ^ exponent := by
  rw [Number.twoPow]
  split
  · next nonneg =>
      obtain ⟨n, rfl⟩ := Int.eq_ofNat_of_zero_le nonneg
      simp
  · next negative =>
      obtain ⟨n, same⟩ := Int.eq_ofNat_of_zero_le (a := -exponent) (by omega)
      obtain rfl : exponent = -n := by omega
      simp [Rat.mkRat_eq_div]

theorem toRat_of_denotes [Limits] (denotes : given.Denotes q) : given.toRat what = .ok q := by
  cases denotes with
  | int n => rfl
  | text written => rw [toRat, Number.read_eq_some_iff.2 written]
  | float finite =>
      rename_i negative mantissa exponent
      simp only [toRat, finite, Number.valueOf?, Option.getD_some, twoPow_eq]
      cases negative <;> simp

/-- A datum of which a rational is read denotes it. -/
theorem denotes_of_toRat [Limits] (read : given.toRat what = .ok q) : given.Denotes q := by
  cases given with
  | int n =>
      cases read
      exact .int n
  | text literal =>
      rw [toRat] at read
      split at read
      · next found =>
          cases read
          exact .text (Number.read_eq_some_iff.1 found)
      · cases read
  | float x =>
      have whole := read
      rw [toRat] at read
      split at read
      · cases read
      · cases read
      · next finite =>
          have denotes := Denotes.float finite
          cases (toRat_of_denotes denotes).symm.trans whole
          exact denotes
  | _ => cases read

theorem toRat_eq_ok_iff [Limits] : given.toRat what = .ok q ↔ given.Denotes q :=
  ⟨denotes_of_toRat, toRat_of_denotes⟩

theorem Denotes.unique [Limits] (denotes : given.Denotes q) (denotes' : given.Denotes r) :
    q = r := by
  have read : given.toRat "" = .ok q := toRat_of_denotes denotes
  exact Except.ok.inj (read.symm.trans (toRat_of_denotes denotes'))

/-- A datum that denotes nothing is refused. -/
theorem toRat_of_not_denotes [Limits] (meaningless : ∀ q, ¬ given.Denotes q) :
    given.toRat what = .error (given.unread what) := by
  cases read : given.toRat what with
  | ok q => exact absurd (denotes_of_toRat read) (meaningless q)
  | error cause =>
      cases given with
      | int n => cases read
      | text literal =>
          rw [toRat] at read
          split at read
          · cases read
          · cases read
            rfl
      | float x =>
          rw [toRat] at read
          rw [unread]
          split at read
          · next undefined => rw [undefined, ← read]
          · next infinite => rw [infinite, ← read]
          · cases read
      | _ => cases read; rfl

theorem IsInfinite.not_denotes [Limits] (infinite : given.IsInfinite) : ¬ given.Denotes q := by
  obtain ⟨x, negative, rfl, read⟩ := infinite
  rintro (_ | finite | _)
  cases read.symm.trans finite

theorem IsSpeechless.not_denotes [Limits] (speechless : given.IsSpeechless) (q : Rat) :
    ¬ given.Denotes q := by
  obtain infinite | ⟨meaningless, -⟩ := speechless
  · exact infinite.not_denotes
  · exact meaningless q

theorem isSpeechless_iff [Limits] (meaningless : ∀ q, ¬ given.Denotes q) :
    given.IsSpeechless ↔ given.IsInfinite ∨ given.isWritable = false := by
  simp only [IsSpeechless, meaningless, not_false_eq_true, implies_true, true_and]

/-- A datum without a number is reported, unless it is infinite or cannot be quoted. -/
theorem isInvalidValue_unread [Limits] :
    (given.unread what).isInvalidValue = false ↔ given.IsInfinite ∨ given.isWritable = false := by
  cases given with
  | float x =>
      rw [unread]
      split
      · next negative read => exact iff_of_true rfl (.inl ⟨x, negative, rfl, read⟩)
      · next finite =>
          refine iff_of_false (by simp [isWritable]) ?_
          rintro (⟨_, negative, ⟨⟩, read⟩ | unwritable)
          · exact finite negative read
          · simp [isWritable] at unwritable
  | _ => simp [unread, IsInfinite, isWritable, Rejection.isInvalidValue]

end Datum

/-! ## Constructions from one number -/

/-- A construction from one unchecked number: what it makes of the numbers that it admits, why it
refuses the others, and why it refuses a datum that denotes none. -/
structure Takes [Limits] {α : Type} (build : Datum → Except Rejection α) (Admits : Rat → Prop)
    (made : ∀ q, Admits q → α) (refusal : Rat → Rejection) (unread : Datum → Rejection) : Prop where
  admitted : ∀ {given q}, given.Denotes q → ∀ admitted : Admits q,
    build given = .ok (made q admitted)
  refused : ∀ {given q}, given.Denotes q → ¬ Admits q → build given = .error (refusal q)
  meaningless : ∀ {given}, (∀ q, ¬ given.Denotes q) → build given = .error (unread given)

namespace Takes

variable {α β : Type} {build : Datum → Except Rejection α} {Admits : Rat → Prop}
  {made : ∀ q, Admits q → α} {refusal : Rat → Rejection} {unread : Datum → Rejection}

theorem map [Limits] (takes : Takes build Admits made refusal unread) (f : α → β) :
    Takes (fun given => f <$> build given) Admits (fun q admitted => f (made q admitted)) refusal
      unread where
  admitted denotes admitted := by rw [takes.admitted denotes admitted, map_ok]
  refused denotes outside := by rw [takes.refused denotes outside, map_error]
  meaningless meaningless := by rw [takes.meaningless meaningless, map_error]

/-- A number that is read and then checked. -/
theorem check [Limits] (label : String) (Admits : Rat → Prop) [DecidablePred Admits]
    (made : ∀ q, Admits q → α) (refusal : Rat → Rejection) :
    Takes (fun given => given.toRat label >>= fun q =>
        if admitted : Admits q then .ok (made q admitted) else .error (refusal q))
      Admits made refusal (Datum.unread label) where
  admitted denotes admitted := by
    rw [Datum.toRat_of_denotes denotes, ok_bind, dif_pos admitted]
  refused denotes outside := by rw [Datum.toRat_of_denotes denotes, ok_bind, dif_neg outside]
  meaningless meaningless := by rw [Datum.toRat_of_not_denotes meaningless, error_bind]

/-- A number that is not checked further. -/
theorem toRat [Limits] (label : String) (refusal : Rat → Rejection) :
    Takes (Datum.toRat label) (fun _ => True) (fun q _ => q) refusal (Datum.unread label) where
  admitted denotes _ := Datum.toRat_of_denotes denotes
  refused _ outside := absurd trivial outside
  meaningless meaningless := Datum.toRat_of_not_denotes meaningless

theorem toLength [Limits] :
    Takes Datum.toLength (0 ≤ ·) (fun q nonneg => ⟨q, nonneg⟩) .negativeDuration
      (Datum.unread "Duration") :=
  check _ _ _ _

theorem toAmount [Limits] (label : String) :
    Takes (Datum.toAmount label) (0 ≤ ·) (fun q nonneg => ⟨q, nonneg⟩) (fun _ => .negative label)
      (Datum.unread label) :=
  check _ _ _ _

/-- An amount that may not exceed a bound. -/
theorem atMost [Limits] (label : String) (bound : Rat)
    (make : ∀ amount : Amount, amount.val ≤ bound → α)
    (tooLarge : Rejection) :
    Takes (fun given => given.toAmount label >>= fun amount =>
        if inside : amount.val ≤ bound then .ok (make amount inside) else .error tooLarge)
      (fun q => 0 ≤ q ∧ q ≤ bound) (fun q inside => make ⟨q, inside.1⟩ inside.2)
      (fun q => if 0 ≤ q then tooLarge else .negative label) (Datum.unread label) where
  admitted denotes inside := by
    rw [(toAmount label).admitted denotes inside.1, ok_bind, dif_pos inside.2]
  refused := by
    intro given q denotes outside
    by_cases nonneg : 0 ≤ q
    · rw [(toAmount label).admitted denotes nonneg, ok_bind, if_pos nonneg,
        dif_neg fun small => outside ⟨nonneg, small⟩]
    · rw [(toAmount label).refused denotes nonneg, error_bind, if_neg nonneg]
  meaningless meaningless := by rw [(toAmount label).meaningless meaningless, error_bind]

end Takes

/-- What can be built from one unchecked number. -/
inductive Construction where
  | number (label : String)
  | rest
  | note (pitch : Pitch) (volume : Volume)
  | delayed (m : Music)
  | taken (m : Music)
  | dropped (m : Music)
  | tempo
  | accent
  | crescendo
  | diminuendo
  | ritardando
  | accelerando
  | staccato
  | legato
  | slurred
  | trill
  | staccatoStyle
  | legatoStyle
  | staccatoSetting
  | legatoSetting

namespace Construction

/-- The kind of value that is built. -/
def Result : Construction → Type
  | number _ => Rat
  | rest | delayed _ | taken _ | dropped _ => Music
  | note .. => Note
  | tempo => Modifier
  | accent | crescendo | diminuendo | ritardando | accelerando | staccato | legato | slurred
  | trill => Attribute
  | staccatoStyle | legatoStyle => Style
  | staccatoSetting | legatoSetting => Settings

def build [Limits] : (c : Construction) → Datum → Except Rejection c.Result
  | number label, given => given.toRat label
  | rest, given => .rest <$> given.toLength
  | note pitch volume, given => Note.onPitch pitch given (.int volume.val)
  | delayed m, given => (m.delayed ·) <$> given.toLength
  | taken m, given => m.take <$> given.toLength
  | dropped m, given => m.drop <$> given.toLength
  | tempo, given => Modifier.tempo? given
  | accent, given => Attribute.accent? given
  | crescendo, given => Attribute.crescendo? given
  | diminuendo, given => Attribute.diminuendo? given
  | ritardando, given => Attribute.ritardando? given
  | accelerando, given => Attribute.accelerando? given
  | staccato, given => Attribute.staccato? given
  | legato, given => Attribute.legato? given
  | slurred, given => Attribute.slurred? given
  | trill, given => Attribute.trill? given .null
  | staccatoStyle, given => Style.staccato? given
  | legatoStyle, given => Style.legato? given
  | staccatoSetting, given => Settings.ofDraft { staccatoFraction := some given }
  | legatoSetting, given => Settings.ofDraft { legatoOverlap := some given }

/-- The numbers of which the value can be built. -/
def Admits : Construction → Rat → Prop
  | number _, _ | staccatoSetting, _ | legatoSetting, _ => True
  | tempo, q | trill, q => 0 < q
  | diminuendo, q => 0 ≤ q ∧ q ≤ 1
  | accelerando, q => 0 ≤ q ∧ q ≤ 1 / 2
  | staccatoStyle, q => 0 < q ∧ q ≤ 1
  | legatoStyle, q => 1 ≤ q
  | _, q => 0 ≤ q

/-- The value that holds a number. -/
def made : (c : Construction) → (q : Rat) → c.Admits q → c.Result
  | number _, q, _ => q
  | rest, q, nonneg => .rest ⟨q, nonneg⟩
  | note pitch volume, q, nonneg => ⟨pitch, ⟨q, nonneg⟩, volume⟩
  | delayed m, q, nonneg => .sequential (.rest ⟨q, nonneg⟩) m
  | taken m, q, nonneg => m.take ⟨q, nonneg⟩
  | dropped m, q, nonneg => m.drop ⟨q, nonneg⟩
  | tempo, q, pos => .tempo ⟨q, pos⟩
  | accent, q, nonneg => .accent ⟨q, nonneg⟩
  | crescendo, q, nonneg => .crescendo ⟨q, nonneg⟩
  | diminuendo, q, inside => .diminuendo ⟨q, inside.1⟩ inside.2
  | ritardando, q, nonneg => .ritardando ⟨q, nonneg⟩
  | accelerando, q, inside => .accelerando ⟨q, inside.1⟩ inside.2
  | staccato, q, nonneg => .staccato ⟨q, nonneg⟩
  | legato, q, nonneg => .legato ⟨q, nonneg⟩
  | slurred, q, nonneg => .slurred ⟨q, nonneg⟩
  | trill, q, pos => .trill (.byLength ⟨q, pos⟩)
  | staccatoStyle, q, inside => .staccato q inside
  | legatoStyle, q, one_le => .legato q one_le
  | staccatoSetting, q, _ => { staccatoFraction := q }
  | legatoSetting, q, _ => { legatoOverlap := q }

/-- What the number is called in messages. -/
def label : Construction → String
  | number label => label
  | rest | note .. | delayed _ | taken _ | dropped _ => "Duration"
  | tempo => "Tempo scale"
  | accent => "Accent factor"
  | crescendo => "Crescendo amount"
  | diminuendo => "Diminuendo amount"
  | ritardando => "Ritardando amount"
  | accelerando => "Accelerando amount"
  | staccato | staccatoStyle => "Staccato fraction"
  | legato => "Legato fraction"
  | slurred => "Slurred fraction"
  | trill => "Trill note duration"
  | legatoStyle => "Legato overlap"
  | staccatoSetting => "staccato_fraction"
  | legatoSetting => "legato_overlap"

/-- Whether the number is a length, which a refusal quotes. -/
def isLength : Construction → Bool
  | rest | note .. | delayed _ | taken _ | dropped _ => true
  | _ => false

/-- Why a number is not admitted. -/
def refusal (c : Construction) (q : Rat) : Rejection :=
  match c with
  | rest | note .. | delayed _ | taken _ | dropped _ => .negativeDuration q
  | tempo => .tempoNotPositive
  | trill => .trillLengthNotPositive
  | staccatoStyle => .staccatoOutOfRange
  | legatoStyle => .legatoBelowOne
  | diminuendo => if 0 ≤ q then .diminuendoAboveOne else .negative c.label
  | accelerando => if 0 ≤ q then .accelerandoAboveHalf else .negative c.label
  | _ => .negative c.label

/-- Why a datum is refused that denotes no number.  For a trill, null means that its notes have no
length given. -/
def unread : Construction → Datum → Rejection
  | trill, .null => .trillUnderdetermined
  | c, given => given.unread c.label

variable {given : Datum} {q : Rat}

theorem volumeOf_val (volume : Volume) : Note.volumeOf (.int volume.val) = .ok volume := by
  rw [Note.volumeOf, Volume.ofInt?_eq_some_iff.2 rfl]
  rfl

theorem onPitch_of_volume [Limits] (pitch : Pitch) (volume : Volume) (given : Datum) :
    Note.onPitch pitch given (.int volume.val) =
      (fun length => ⟨pitch, length, volume⟩) <$> given.toLength := by
  rw [Note.onPitch]
  cases given.toLength with
  | error cause => rfl
  | ok length => rw [ok_bind, volumeOf_val]; rfl

theorem ofDraft_staccatoFraction [Limits] (given : Datum) :
    Settings.ofDraft { staccatoFraction := some given } =
      (fun q => { staccatoFraction := q }) <$> given.toRat "staccato_fraction" := by
  unfold Settings.ofDraft
  simp only [Settings.orDefault, ok_bind]
  cases given.toRat "staccato_fraction" <;> rfl

theorem ofDraft_legatoOverlap [Limits] (given : Datum) :
    Settings.ofDraft { legatoOverlap := some given } =
      (fun q => { legatoOverlap := q }) <$> given.toRat "legato_overlap" := by
  unfold Settings.ofDraft
  simp only [Settings.orDefault, ok_bind]
  cases given.toRat "legato_overlap" <;> rfl

theorem trill?_null_right [Limits] (given : Datum) (present : given ≠ .null) :
    Attribute.trill? given .null = given.toRat "Trill note duration" >>= fun length =>
      if pos : 0 < length then .ok (.trill (.byLength ⟨length, pos⟩))
      else .error .trillLengthNotPositive := by
  cases given with
  | null => exact absurd rfl present
  | _ => rfl

theorem takes_trill [Limits] :
    Takes (Attribute.trill? · .null) (0 < ·) (fun q pos => .trill (.byLength ⟨q, pos⟩))
      (fun _ => .trillLengthNotPositive) trill.unread := by
  have checked := Takes.check "Trill note duration" (0 < ·)
    (fun q pos => Attribute.trill (.byLength ⟨q, pos⟩)) fun _ => .trillLengthNotPositive
  have present : ∀ {given : Datum} {q : Rat}, given.Denotes q → given ≠ .null := by
    rintro given q denotes rfl
    cases denotes
  constructor
  · intro given q denotes admitted
    rw [trill?_null_right given (present denotes)]
    exact checked.admitted denotes admitted
  · intro given q denotes outside
    rw [trill?_null_right given (present denotes)]
    exact checked.refused denotes outside
  · intro given meaningless
    -- Null is no number either, but here it is a length that is left out.
    by_cases absent : given = .null
    · rw [absent]
      rfl
    · have same : trill.unread given = given.unread "Trill note duration" := by
        cases given with
        | null => exact absurd rfl absent
        | _ => rfl
      rw [trill?_null_right given absent, same]
      exact checked.meaningless meaningless

/-- Every construction takes its numbers. -/
theorem takes [Limits] (c : Construction) : Takes c.build c.Admits c.made c.refusal c.unread := by
  cases c with
  | number label => exact .toRat label _
  | rest => exact Takes.toLength.map Music.rest
  | note pitch volume =>
      have built : build (note pitch volume) = fun given =>
          (fun length => ⟨pitch, length, volume⟩) <$> given.toLength :=
        funext fun given => onPitch_of_volume pitch volume given
      rw [built]
      exact Takes.toLength.map _
  | delayed m => exact Takes.toLength.map (m.delayed ·)
  | taken m => exact Takes.toLength.map m.take
  | dropped m => exact Takes.toLength.map m.drop
  | tempo => exact .check ..
  | accent => exact (Takes.toAmount _).map Attribute.accent
  | crescendo => exact (Takes.toAmount _).map Attribute.crescendo
  | ritardando => exact (Takes.toAmount _).map Attribute.ritardando
  | staccato => exact (Takes.toAmount _).map Attribute.staccato
  | legato => exact (Takes.toAmount _).map Attribute.legato
  | slurred => exact (Takes.toAmount _).map Attribute.slurred
  | diminuendo => exact .atMost _ 1 Attribute.diminuendo _
  | accelerando => exact .atMost _ (1 / 2) Attribute.accelerando _
  | staccatoStyle => exact .check ..
  | legatoStyle => exact .check ..
  | trill => exact takes_trill
  | staccatoSetting =>
      have built : build staccatoSetting = fun given =>
          (fun q => { staccatoFraction := q }) <$> given.toRat "staccato_fraction" :=
        funext ofDraft_staccatoFraction
      rw [built]
      exact (Takes.toRat _ _).map _
  | legatoSetting =>
      have built : build legatoSetting = fun given =>
          (fun q => { legatoOverlap := q }) <$> given.toRat "legato_overlap" :=
        funext ofDraft_legatoOverlap
      rw [built]
      exact (Takes.toRat _ _).map _

theorem isInvalidValue_refusal_of_not_isLength [Limits] {c : Construction}
    (plain : c.isLength = false) :
    (c.refusal q).isInvalidValue = true := by
  cases c with
  | rest | note | delayed | taken | dropped => cases plain
  | diminuendo | accelerando =>
      rw [refusal]
      split <;> rfl
  | _ => rfl

/-- Of the numbers that are not admitted only a length is quoted. -/
theorem isInvalidValue_refusal [Limits] {c : Construction} :
    (c.refusal q).isInvalidValue = false ↔ c.isLength = true ∧ Number.isWritable q = false := by
  cases isLength : c.isLength with
  | false => simp [isInvalidValue_refusal_of_not_isLength isLength]
  | true =>
      have quoted : c.refusal q = .negativeDuration q := by
        cases c <;> first | rfl | cases isLength
      simp [quoted]

theorem isInvalidValue_unread [Limits] {c : Construction} :
    (c.unread given).isInvalidValue = false ↔ given.IsInfinite ∨ given.isWritable = false := by
  by_cases absent : c = trill ∧ given = .null
  · obtain ⟨rfl, rfl⟩ := absent
    exact iff_of_false (by simp [unread, Rejection.isInvalidValue])
      (by simp [Datum.IsInfinite, Datum.isWritable])
  · have same : c.unread given = given.unread c.label := by
      rw [unread]
      rintro rfl rfl
      exact absent ⟨rfl, rfl⟩
    rw [same, Datum.isInvalidValue_unread]

/-- Lengths are admitted unless they are negative. -/
theorem admits_iff_of_isLength {c : Construction} (isLength : c.isLength = true) :
    c.Admits q ↔ 0 ≤ q := by
  cases c <;> first | rfl | cases isLength

/-- A refusal reports an invalid value, unless the datum is one that leaves it without words. -/
theorem isInvalidValue_iff [Limits] {c : Construction} {cause : Rejection}
    (refused : c.build given = .error cause) :
    cause.isInvalidValue = false ↔
      given.IsSpeechless ∨ c.isLength = true ∧ given.IsSpeechlessLength := by
  by_cases denoting : ∃ q, given.Denotes q
  · obtain ⟨q, denotes⟩ := denoting
    by_cases admitted : c.Admits q
    · cases (c.takes.admitted denotes admitted).symm.trans refused
    · cases (c.takes.refused denotes admitted).symm.trans refused
      rw [isInvalidValue_refusal]
      constructor
      · rintro ⟨isLength, unwritable⟩
        rw [admits_iff_of_isLength isLength, not_le] at admitted
        exact .inr ⟨isLength, q, admitted, denotes, unwritable⟩
      · rintro (speechless | ⟨isLength, r, -, denotes', unwritable⟩)
        · exact absurd denotes (speechless.not_denotes q)
        · rw [denotes.unique denotes']
          exact ⟨isLength, unwritable⟩
  · have meaningless : ∀ q, ¬ given.Denotes q := not_exists.1 denoting
    cases (c.takes.meaningless meaningless).symm.trans refused
    rw [isInvalidValue_unread, ← Datum.isSpeechless_iff meaningless]
    refine (or_iff_left ?_).symm
    rintro ⟨-, q, -, denotes, -⟩
    exact meaningless q denotes

end Construction

/-! ## Ornaments -/

/-- What is wrong with a grace note apart from the fraction that it is to take. -/
inductive Rejection.OfGraceNote : Rejection → Prop where
  | fraction : OfGraceNote .graceFractionOutOfRange
  | pitch (number : Int) : OfGraceNote (.absoluteOutOfRange number)
  | withoutNote : OfGraceNote .graceWithoutNote

/-- What is wrong with a trill apart from the length that its notes are to have. -/
inductive Rejection.OfTrill : Rejection → Prop where
  | underdetermined : OfTrill .trillUnderdetermined
  | length : OfTrill .trillLengthNotPositive
  | count : OfTrill .trillCountNotPositive
  | parts (excess : Excess) : OfTrill (.tooManyParts excess)
  | pitch (number : Int) : OfTrill (.absoluteOutOfRange number)
  | withoutNote : OfTrill .trillWithoutNote

variable {cause : Rejection}

theorem Rejection.OfGraceNote.of_not_isInvalidValue [Limits] (ofGraceNote : cause.OfGraceNote)
    (silent : cause.isInvalidValue = false) :
    ∃ number, cause = .absoluteOutOfRange number ∧ Number.isWritable number = false := by
  cases ofGraceNote with
  | pitch number => exact ⟨number, rfl, by simpa using silent⟩
  | _ => cases silent

theorem Rejection.OfTrill.of_not_isInvalidValue [Limits] (ofTrill : cause.OfTrill)
    (silent : cause.isInvalidValue = false) :
    (∃ excess, cause = .tooManyParts excess) ∨
      ∃ number, cause = .absoluteOutOfRange number ∧ Number.isWritable number = false := by
  cases ofTrill with
  | parts excess => exact .inl ⟨excess, rfl⟩
  | pitch number => exact .inr ⟨number, rfl, by simpa using silent⟩
  | _ => cases silent

theorem Pitch.eq_absoluteOutOfRange_of_transpose {p : Pitch} {semitones : Int}
    (failed : p.transpose semitones = .error cause) :
    cause = .absoluteOutOfRange (p.absolute + semitones) := by
  rw [transpose, ofAbsolute] at failed
  split at failed
  · cases failed
  · cases failed
    rfl

namespace Note

variable {n : Note} {offset : Int} {fraction : Datum} {request : TrillRequest}

theorem withGrace_error [Limits] (failed : n.withGrace offset fraction = .error cause) :
    fraction.toRat "Grace note fraction" = .error cause ∨ cause.OfGraceNote := by
  obtain unread | ⟨q, -, failed⟩ := bind_eq_error.1 failed
  · exact .inl unread
  · split at failed
    · obtain outside | ⟨pitch, -, made⟩ := bind_eq_error.1 failed
      · rw [Pitch.eq_absoluteOutOfRange_of_transpose outside]
        exact .inr (.pitch _)
      · cases made
    · cases failed
      exact .inr .fraction

theorem pieces_error [Limits] {total : Amount} (failed : request.pieces total = .error cause) :
    request.length = some (.error cause) ∨ cause.OfTrill := by
  rw [TrillRequest.pieces] at failed
  split at failed
  · cases failed
    exact .inr .underdetermined
  · split at failed
    · obtain ⟨excess, -, rfl⟩ := mapError_eq_error.1 failed
      exact .inr (.parts excess)
    · cases failed
      exact .inr .count
  · next outcome asked _ =>
      obtain unread | ⟨length, -, failed⟩ := bind_eq_error.1 failed
      · exact .inl (by rw [asked, unread])
      · split at failed
        · cases failed
          exact .inr .length
        · obtain ⟨excess, -, rfl⟩ := mapError_eq_error.1 failed
          exact .inr (.parts excess)
  · cases failed
    exact .inr .underdetermined

theorem trilled_error [Limits] (failed : n.trilled request = .error cause) :
    request.length = some (.error cause) ∨ cause.OfTrill := by
  obtain undivided | ⟨lengths, -, failed⟩ := bind_eq_error.1 failed
  · exact pieces_error undivided
  · obtain outside | ⟨other, -, made⟩ := bind_eq_error.1 failed
    · rw [Pitch.eq_absoluteOutOfRange_of_transpose outside]
      exact .inr (.pitch _)
    · cases made

end Note

namespace Music

variable {m : Music} {offset interval : Int} {fraction length count : Datum}

theorem graceNote_error [Limits] (failed : m.graceNote offset fraction = .error cause) :
    fraction.toRat "Grace note fraction" = .error cause ∨ cause.OfGraceNote := by
  induction m with
  | note n => exact Note.withGrace_error failed
  | modified modifier inner ih => exact ih (map_eq_error.1 failed)
  | _ =>
      cases failed
      exact .inr .withoutNote

theorem trillWith_error [Limits] {request : Note.TrillRequest}
    (failed : m.trillWith request = .error cause) :
    request.length = some (.error cause) ∨ cause.OfTrill := by
  induction m generalizing request with
  | note n => exact Note.trilled_error failed
  | modified modifier inner ih =>
      cases modifier with
      | tempo scale =>
          rw [trillWith] at failed
          split at failed
          · next unread =>
              cases failed
              exact .inl unread
          · obtain unread | ofTrill := ih (map_eq_error.1 failed)
            · cases unread
            · exact .inr ofTrill
          · exact ih (map_eq_error.1 failed)
      | _ => exact ih (map_eq_error.1 failed)
  | _ =>
      cases failed
      exact .inr .withoutNote

theorem trill_error [Limits] (failed : m.trill interval length count = .error cause) :
    length.toLength = .error cause ∨ cause.OfTrill := by
  rw [trill_eq] at failed
  obtain unread | ofTrill := trillWith_error failed
  · by_cases given : length = .null
    · subst given
      cases unread
    · rw [Note.TrillRequest.ofData_of_ne_null given] at unread
      exact .inl (Option.some.inj unread)
  · exact .inr ofTrill

end Music

namespace Construction

/-- **Checked numbers.**  A datum denotes one number at most, and every construction takes it: it
holds exactly the number if that is admitted, and is refused otherwise.  The refusal reports an
invalid value, unless the datum is infinite, or the message would have to quote an integer of too
many digits.  The same goes for ornaments, which are refused without a report also where they have
too many notes or reach a pitch that cannot be quoted. -/
theorem constructions_take_exact_numbers [Limits] (c : Construction) (given : Datum) (m : Music)
    (interval : Int) (count : Datum) :
    (∀ q r, given.Denotes q → given.Denotes r → q = r) ∧
    Takes c.build c.Admits c.made c.refusal c.unread ∧
    (∀ cause, c.build given = .error cause → (cause.isInvalidValue = false ↔
      given.IsSpeechless ∨ c.isLength = true ∧ given.IsSpeechlessLength)) ∧
    (∀ cause, m.graceNote interval given = .error cause → cause.isInvalidValue = false →
      given.IsSpeechless ∨
        ∃ number, cause = .absoluteOutOfRange number ∧ Number.isWritable number = false) ∧
    ∀ cause, m.trill interval given count = .error cause → cause.isInvalidValue = false →
      given.IsSpeechless ∨ given.IsSpeechlessLength ∨ (∃ excess, cause = .tooManyParts excess) ∨
        ∃ number, cause = .absoluteOutOfRange number ∧ Number.isWritable number = false := by
  refine ⟨fun q r => Datum.Denotes.unique, c.takes, fun cause => isInvalidValue_iff, ?_, ?_⟩
  · intro cause failed silent
    obtain unread | ofGraceNote := Music.graceNote_error failed
    · have refused : (number "Grace note fraction").build given = .error cause := unread
      obtain speechless | ⟨isLength, -⟩ := (isInvalidValue_iff refused).1 silent
      · exact .inl speechless
      · cases isLength
    · exact .inr (ofGraceNote.of_not_isInvalidValue silent)
  · intro cause failed silent
    obtain unread | ofTrill := Music.trill_error failed
    · have refused : rest.build given = .error cause := congrArg (Music.rest <$> ·) unread
      obtain speechless | ⟨-, speechless⟩ := (isInvalidValue_iff refused).1 silent
      · exact .inl speechless
      · exact .inr (.inl speechless)
    · exact .inr (.inr (ofTrill.of_not_isInvalidValue silent))

open Usual

/-- A text, a binary fraction, a negative integer and a list, each of them where a number is
wanted. -/
theorem numbers_of_four_kinds :
    (Datum.text " 3/8 ").Denotes (3 / 8) ∧
      (Datum.float 0.1).Denotes (3602879701896397 / 36028797018963968) ∧
      rest.build (.text " 3/8 ") = .ok (Music.rest (.nearest (3 / 8))) ∧
      (∃ scale : Scale, scale.val = 3602879701896397 / 36028797018963968 ∧
        tempo.build (.float 0.1) = .ok (Modifier.tempo scale)) ∧
      rest.build (.int (-1)) = .error (.negativeDuration (-1)) ∧
      (Rejection.negativeDuration (-1)).isInvalidValue = true ∧
      accent.build (.list []) = .error (.notRational "Accent factor" (.list [])) := by
  have written : (Datum.text " 3/8 ").Denotes (3 / 8) :=
    .text (Number.read_eq_some_iff.1 (by decide +kernel))
  have binary : (Datum.float 0.1).Denotes (3602879701896397 / 36028797018963968) := by
    have read : (Datum.float 0.1).toRat "" = .ok (3602879701896397 / 36028797018963968) :=
      eq_ok_of_toOption (by decide +kernel)
    exact Datum.denotes_of_toRat read
  have pos : (0 : Rat) < 3602879701896397 / 36028797018963968 := by decide +kernel
  have nonneg : (0 : Rat) ≤ 3 / 8 := by decide +kernel
  have negative : ¬ (0 : Rat) ≤ ((-1 : Int) : Rat) := by decide +kernel
  have listed : ∀ q, ¬ (Datum.list []).Denotes q := by rintro q ⟨⟩
  obtain ⟨-, rests, -⟩ := constructions_take_exact_numbers rest .null default 0 .null
  obtain ⟨-, tempos, -⟩ := constructions_take_exact_numbers tempo .null default 0 .null
  obtain ⟨-, accents, -⟩ := constructions_take_exact_numbers accent .null default 0 .null
  have built := rests.admitted written nonneg
  have refused := rests.refused (.int (-1)) negative
  refine ⟨written, binary, ?_, ⟨⟨_, pos⟩, rfl, tempos.admitted binary pos⟩, refused, ?_,
    accents.meaningless listed⟩
  · rw [show Amount.nearest (3 / 8) = ⟨3 / 8, nonneg⟩ from Amount.nearest_val ⟨_, nonneg⟩]
    exact built
  · rw [Rejection.isInvalidValue_negativeDuration]
    decide +kernel

/-- The floating-point number beyond all others. -/
def endless : Float := 1.0 / 0.0

/-- A rest of infinite length is refused, but not as an invalid value. -/
theorem endless_rest_speechless :
    (Datum.float endless).IsInfinite ∧ rest.build (.float endless) = .error .infinite ∧
      Rejection.infinite.isInvalidValue = false := by
  have read : Number.Reading.ofFloat endless = .infinite false := by decide +kernel
  have infinite : (Datum.float endless).IsInfinite := ⟨_, _, rfl, read⟩
  refine ⟨infinite, ?_, rfl⟩
  have refused := rest.takes.meaningless fun q => infinite.not_denotes (q := q)
  rw [refused]
  change Except.error (Datum.unread "Duration" (.float endless)) = _
  rw [Datum.unread, read]

end Construction

end MusicAlgebra
