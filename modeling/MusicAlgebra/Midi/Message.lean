import MusicAlgebra.Theory.Instrument

/-!
# MIDI messages

The messages that a renderer sends.  Channels and data bytes are bounded by their types, so only
valid messages exist; building one from integers can fail.
-/

namespace MusicAlgebra

/-- A MIDI channel, counted from zero. -/
abbrev Channel := Fin 16

/-- A data byte of a MIDI message. -/
abbrev DataByte := Fin 128

inductive Message where
  | programChange (channel : Channel) (program : DataByte)
  | noteOn (channel : Channel) (note velocity : DataByte)
  | noteOff (channel : Channel) (note velocity : DataByte)
  deriving DecidableEq, Repr

namespace Message

/-- The name of a message's type. -/
def kind : Message → String
  | programChange .. => "program_change"
  | noteOn .. => "note_on"
  | noteOff .. => "note_off"

/-- The number under which a message of its type on channel zero begins. -/
def status : Message → Nat
  | noteOff .. => 128
  | noteOn .. => 144
  | programChange .. => 192

/-- The message as it is sent to a device. -/
def bytes (message : Message) : List UInt8 :=
  match message with
  | programChange channel program => [message.status + channel.val, program.val].map .ofNat
  | noteOn channel note velocity | noteOff channel note velocity =>
    [message.status + channel.val, note.val, velocity.val].map .ofNat

theorem toNat_lt_of_inRange {n : Int} (inRange : 0 ≤ n ∧ n ≤ 127) : n.toNat < 128 := by
  omega

/-- The integers 0 to 127 are data bytes. -/
def dataByte? (n : Int) : Option DataByte :=
  if inRange : 0 ≤ n ∧ n ≤ 127 then some ⟨n.toNat, toNat_lt_of_inRange inRange⟩ else none

/-- What is said of an integer that is no data byte. -/
def dataByteReason : String := "data byte must be in range 0..127"

/-- The message that releases a note. -/
def release (channel : Channel) (note : DataByte) : Message :=
  noteOff channel note ⟨0, Nat.zero_lt_succ 127⟩

end Message

end MusicAlgebra
