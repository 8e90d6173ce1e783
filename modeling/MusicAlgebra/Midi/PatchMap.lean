import MusicAlgebra.Keyed
import MusicAlgebra.Midi.Halt

/-!
# Patch maps

A patch map gives every instrument a MIDI channel of its own.  The drum kit has channel 9 and no
other instrument may use it.  Instruments are assigned under any spelling of their name and looked
up under the canonical one.
-/

namespace MusicAlgebra

/-- Instruments and their channels, in the order in which the instruments were first assigned. -/
structure PatchMap where
  assignments : List (Instrument × Channel) := []
  deriving DecidableEq

namespace PatchMap

def empty : PatchMap := {}

def size (m : PatchMap) : Nat := m.assignments.length

/-- The channels that melodic instruments take, in order. -/
def melodicChannels : List Channel :=
  (List.finRange 16).filter (· ≠ Instrument.percussionChannel)

/-- The instrument that uses a channel, other than the given one. -/
def rival? (m : PatchMap) (instrument : Instrument) (channel : Channel) : Option Instrument :=
  (m.assignments.find? fun entry => entry.2 = channel ∧ entry.1 ≠ instrument).map Prod.fst

/-- Put an instrument on a channel. -/
def place (m : PatchMap) (instrument : Instrument) (channel : Channel) :
    Except Halt PatchMap :=
  if (instrument = .percussion) ↔ (channel = Instrument.percussionChannel) then
    match m.rival? instrument channel with
    | some other => .error (.failed (.channelTaken channel other))
    | none => .ok ⟨Keyed.put instrument channel m.assignments⟩
  else .error (.failed .percussionChannel)

/-- Put an instrument, under any spelling of its name, on an unchecked channel. -/
def assign [Limits] (m : PatchMap) (given : Datum) (channel : Int) : Except Halt PatchMap :=
  match Instrument.ofDatum? given with
  | none => .error (.told (.unknownInstrument given))
  | some instrument =>
    if inRange : 0 ≤ channel ∧ channel < 16 then
      m.place instrument ⟨channel.toNat, by omega⟩
    else .error (.told (.channelOutOfRange channel))

/-- Record the channel of a name.  A name that is there already keeps its place. -/
def record (entries : List (Datum × Int)) (name : Datum) (channel : Int) : List (Datum × Int) :=
  if entries.any (·.1 == name) then
    entries.map fun (other, old) => (other, if other == name then channel else old)
  else entries ++ [(name, channel)]

/-- A map from unchecked names and channels, each name with the last of its channels. -/
def ofEntries [Limits] (entries : List (Datum × Int)) : Except Halt PatchMap :=
  match entries.find? (!·.1.isNameable) with
  | some (given, _) => .error (.failed (.unusableName given))
  | none =>
    (entries.foldl (fun known (name, channel) => record known name channel) []).foldlM
      (fun m (name, channel) => m.assign name channel) empty

/-- The channel of the instrument with a canonical name. -/
def named? (m : PatchMap) (name : String) : Option Channel :=
  (Instrument.ofName? name).bind fun instrument => Keyed.find? instrument m.assignments

/-- The channel of an instrument by an unchecked canonical name, if it has one. -/
def find? (m : PatchMap) (given : Datum) : Except Halt (Option Channel) :=
  if given.isNameable then
    match given with
    | .text name => .ok (m.named? name)
    | _ => .ok none
  else .error (.failed (.unusableName given))

/-- The channel of an instrument by an unchecked canonical name. -/
def channel [Limits] (m : PatchMap) (given : Datum) : Except Halt Channel := do
  match ← m.find? given with
  | some channel => .ok channel
  | none => .error (.told (.unassigned given))

/-- Assign names one after the other: a name that is in the map already is passed over, the drum kit
takes its channel, and any other name takes the next free channel. -/
def assignAll [Limits] (m : PatchMap) : List Channel → List Datum → Except Halt PatchMap
  | _, [] => .ok m
  | free, name :: names => do
    match ← m.find? name with
    | some _ => assignAll m free names
    | none =>
      if name == .text Instrument.percussion.name then
        let m ← m.assign name Instrument.percussionChannel.val
        assignAll m free names
      else
        match free with
        | [] => .error (.failed .tooManyInstruments)
        | channel :: free =>
          let m ← m.assign name channel.val
          assignAll m free names

/-- A map for the given instruments, in order of first use. -/
def forInstruments [Limits] (names : List Datum) : Except Halt PatchMap :=
  empty.assignAll melodicChannels names

/-- The messages that select each melodic instrument on its channel. -/
def programChanges (m : PatchMap) : List Message :=
  m.assignments.filterMap fun (instrument, channel) =>
    match instrument with
    | .melodic program => some (.programChange channel program)
    | .percussion => none

end PatchMap

end MusicAlgebra
