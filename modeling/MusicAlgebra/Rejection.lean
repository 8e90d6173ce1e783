import MusicAlgebra.Datum
import MusicAlgebra.Score.PartCount
import MusicAlgebra.Settings.Fault
import MusicAlgebra.Theory.Mode
import MusicAlgebra.Theory.Spelling

/-!
# Why a value is refused

Values are checked when they are built, and each way of failing is one cause.  The wording of every
cause is in `Rejection.message` and nowhere else.
-/

namespace MusicAlgebra

/-- The cause for which a value is refused when something is built from it. -/
inductive Rejection where
  /-- A truth value was given for a number. -/
  | notNumeric (what : String) (given : Datum)
  /-- Nothing rational can be read from the value. -/
  | notRational (what : String) (given : Datum)
  /-- An infinite number was given for a rational. -/
  | infinite
  /-- A list or a mapping was given for a name. -/
  | unusableName (given : Datum)
  | negative (what : String)
  | negativeDuration (value : Rat)
  | notPitch (given : Datum)
  | unreadablePitch (text : String)
  /-- An integer was written with too many digits. -/
  | tooManyDigits
  | unknownPitchClass (given : Datum)
  | octaveNotInteger (given : Datum)
  | pitchOutOfRange (spelling : Spelling) (octave absolute : Int)
  | absoluteOutOfRange (absolute : Int)
  | unknownMode (given : Datum)
  | volumeNotInteger (given : Datum)
  | volumeOutOfRange (value : Int)
  | diminuendoAboveOne
  | accelerandoAboveHalf
  | loudnessOutOfRange (given : Datum)
  | notMarking (given : Datum)
  | markingUnnamed (given : Datum)
  | trillUnderdetermined
  | trillLengthNotPositive
  | trillCountNotPositive
  | degreesNotInteger (given : Datum)
  | notAttribute (given : Datum)
  | tempoNotPositive
  | transpositionNotInteger (given : Datum)
  | dynamicsNotInteger (given : Datum)
  | notKey (given : Datum)
  | notModifier (given : Datum)
  | notMusic (given : Datum)
  | repeatCountInvalid (given : Datum)
  /-- Music of too many parts was asked for. -/
  | tooManyParts (excess : Excess)
  | graceFractionOutOfRange
  | graceWithoutNote
  | trillWithoutNote
  | pieceLengthMissing
  | staccatoOutOfRange
  | legatoBelowOne
  | beatRateInvalid (given : Datum)
  | deviceInvalid (given : Datum)
  | baseVolumeInvalid (given : Datum)
  | sectionNotMapping (name : String)
  | settingsNotMapping
  | settingsUnreadable (fault : Document.Fault)
  | unknownInstrument (given : Datum)
  deriving Repr

namespace Rejection

/-- The names of all modes as a list in a message. -/
def modeNames : String :=
  (Datum.list (Mode.all.map fun mode => .text mode.name)).describe

/-- What a user is told about a refused value. -/
def message : Rejection → String
  | notNumeric what given => s!"{what} must be a number, got {given.describe}"
  | notRational what given => s!"{what} must be a rational number, got {given.describe}"
  | infinite => "An infinite number has no exact value"
  | unusableName given => s!"{given.describe} cannot be used as a name"
  | negative what => s!"{what} cannot be negative"
  | negativeDuration value => s!"Duration cannot be negative, got {Number.write value}"
  | notPitch given => s!"Cannot interpret {given.describe} as a pitch"
  | unreadablePitch text => s!"Cannot parse pitch {Text.quoted text}"
  | tooManyDigits => "An integer has too many digits"
  | unknownPitchClass given =>
    s!"Unknown pitch class {given.describe}. Expected a letter A-G with up to two '#' or 'b'."
  | octaveNotInteger given => s!"Octave must be an integer, got {given.describe}"
  | pitchOutOfRange spelling octave absolute =>
    s!"Pitch {spelling.name}{octave} ({absolute}) is outside the MIDI range 0-127"
  | absoluteOutOfRange absolute => s!"Absolute pitch {absolute} is outside the MIDI range 0-127"
  | unknownMode given => s!"Unknown mode '{given.plain}'. Available: {modeNames}"
  | volumeNotInteger given => s!"Volume must be an integer, got {given.describe}"
  | volumeOutOfRange value => s!"Volume must be 0-127, got {value}"
  | diminuendoAboveOne => "Diminuendo amount cannot exceed 1"
  | accelerandoAboveHalf => "Accelerando amount cannot exceed 1/2"
  | loudnessOutOfRange given => s!"Loudness must be an integer 0-127, got {given.describe}"
  | notMarking given => s!"Dynamic needs a StdLoudness marking, got {given.describe}"
  | markingUnnamed given => s!"Marking name must be a non-empty string, got {given.describe}"
  | trillUnderdetermined => "Trill needs exactly one of note_duration or count"
  | trillLengthNotPositive => "Trill note duration must be positive"
  | trillCountNotPositive => "Trill count must be a positive integer"
  | degreesNotInteger given =>
    s!"DiatonicTranspose degrees must be an integer, got {given.describe}"
  | notAttribute given => s!"Not a phrase attribute: {given.describe}"
  | tempoNotPositive => "Tempo scale must be positive"
  | transpositionNotInteger given => s!"Transposition must be an integer, got {given.describe}"
  | dynamicsNotInteger given => s!"Dynamics delta must be an integer, got {given.describe}"
  | notKey given => s!"KeySig expects a KeySignature, got {given.describe}"
  | notModifier given => s!"Not a modifier: {given.describe}"
  | notMusic given => s!"Expected a Music value, got {given.describe}"
  | repeatCountInvalid given =>
    s!"Repeat count must be a non-negative integer, got {given.describe}"
  | tooManyParts excess => excess.message
  | graceFractionOutOfRange => "Grace note fraction must lie strictly between 0 and 1"
  | graceWithoutNote => "A grace note can only be added to a note"
  | trillWithoutNote => "A trill can only be built from a note"
  | pieceLengthMissing => "Trill needs either note_duration or count"
  | staccatoOutOfRange => "Staccato fraction must lie in (0, 1]"
  | legatoBelowOne => "Legato overlap must be at least 1"
  | beatRateInvalid given => s!"bpm must be a positive number, got {given.describe}"
  | deviceInvalid given => s!"device_name must be a string, got {given.describe}"
  | baseVolumeInvalid given => s!"volume must be an integer 0-127, got {given.describe}"
  | sectionNotMapping name => s!"Config section '{name}' must be a mapping"
  | settingsNotMapping => "Config must be a mapping"
  | settingsUnreadable _ => "Config cannot be read"
  | unknownInstrument given => s!"Unknown instrument: {given.describe}"

/-- Whether a refusal reaches the user as a report that a value is invalid.  A few causes end in
another way, and no report can quote a number of too many digits. -/
def isInvalidValue [Limits] : Rejection → Bool
  | infinite | unusableName _ | tooManyDigits | tooManyParts _ | settingsUnreadable _
  | unknownInstrument _ => false
  | notNumeric _ given | notRational _ given | notPitch given | unknownPitchClass given
  | octaveNotInteger given | unknownMode given | volumeNotInteger given | loudnessOutOfRange given
  | notMarking given | markingUnnamed given | degreesNotInteger given | notAttribute given
  | transpositionNotInteger given | dynamicsNotInteger given | notKey given | notModifier given
  | notMusic given | repeatCountInvalid given | beatRateInvalid given | deviceInvalid given
  | baseVolumeInvalid given => given.isWritable
  | negativeDuration value => Number.isWritable value
  | pitchOutOfRange _ octave absolute => Number.isWritable octave && Number.isWritable absolute
  | absoluteOutOfRange absolute => Number.isWritable absolute
  | volumeOutOfRange value => Number.isWritable value
  | negative _ | unreadablePitch _ | diminuendoAboveOne | accelerandoAboveHalf
  | trillUnderdetermined | trillLengthNotPositive | trillCountNotPositive | tempoNotPositive
  | graceFractionOutOfRange | graceWithoutNote | trillWithoutNote | pieceLengthMissing
  | staccatoOutOfRange | legatoBelowOne | sectionNotMapping _ | settingsNotMapping => true

end Rejection

end MusicAlgebra
