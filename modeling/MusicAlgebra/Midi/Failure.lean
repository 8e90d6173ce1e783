import MusicAlgebra.Midi.Message

/-!
# Why a performance cannot be rendered
-/

namespace MusicAlgebra

/-- The cause for which a performance cannot be sent to a MIDI output. -/
inductive RenderFailure where
  | alreadyStreaming
  | pitchOutOfRange (pitch : Int) (onset : Rat)
  | tooManyInstruments
  | unknownInstrument (given : Datum)
  | channelOutOfRange (channel : Int)
  /-- The drum kit and its channel belong together. -/
  | percussionChannel
  | channelTaken (channel : Channel) (other : Instrument)
  | unassigned (given : Datum)
  /-- A list or a mapping was given for the name of an instrument. -/
  | unusableName (given : Datum)
  | noOutputs
  | outputMissing (name : String) (outputs : List String)
  | listingFailed (reason : String)
  | openingFailed (name reason : String)
  /-- Something went wrong while the messages were being sent. -/
  | sendFailed (reason : String)
  /-- The notes still sounding could not be released after the end. -/
  | releaseFailed (reason : String)
  deriving Repr

namespace RenderFailure

def message : RenderFailure → String
  | alreadyStreaming => "Renderer is already streaming"
  | pitchOutOfRange pitch onset =>
    s!"Pitch {pitch} at {Number.write onset} is outside the MIDI range 0-127"
  | tooManyInstruments =>
    "Too many instruments: at most 15 melodic instruments fit on one MIDI port"
  | unknownInstrument given => s!"Unknown instrument: {given.describe}"
  | channelOutOfRange channel => s!"MIDI channel must be 0-15, got {channel}"
  | percussionChannel => "Only percussion may use channel 9, and it must"
  | channelTaken channel other => s!"Channel {channel.val} is already assigned to {other.name}"
  | unassigned given => s!"No channel assigned to {given.describe}"
  | unusableName given => s!"{given.describe} cannot be used as a name"
  | noOutputs => "No MIDI output devices found."
  | outputMissing name outputs =>
    let available := (Datum.list (outputs.map .text)).describe
    s!"MIDI output device '{name}' not found. Available devices: {available}"
  | listingFailed reason => s!"Failed to list MIDI outputs: {reason}"
  | openingFailed name reason => s!"Failed to open MIDI output '{name}': {reason}"
  | sendFailed reason => s!"MIDI send failed (device may be disconnected): {reason}"
  | releaseFailed reason => s!"Failed to release sounding notes: {reason}"

/-- Whether all numbers that a failure tells of can be written. -/
def isWritable [Limits] : RenderFailure → Bool
  | pitchOutOfRange pitch onset => Number.isWritable pitch && Number.isWritable onset
  | unknownInstrument given | unassigned given => given.isWritable
  | channelOutOfRange channel => Number.isWritable channel
  | alreadyStreaming | tooManyInstruments | percussionChannel | channelTaken _ _ | unusableName _
  | noOutputs | outputMissing _ _ | listingFailed _ | openingFailed _ _ | sendFailed _
  | releaseFailed _ => true

end RenderFailure

end MusicAlgebra
