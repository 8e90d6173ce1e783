import MusicAlgebra.Midi.PatchMap
import MusicAlgebra.Performance.Event

/-!
# Message queues

Before anything is sent, a performance is turned into a queue of scheduled note messages in the
order in which they will go out: by time, releases before attacks, and in the order of the events.
Events that cannot be heard are left out.  An event that is refused or left out is told to the user,
and must be one that can be written.
-/

namespace MusicAlgebra

/-- What a scheduled message does.  At equal times a release goes out first, so that a repeated
pitch sounds again. -/
inductive NoteAction where
  | release
  | attack
  deriving DecidableEq, Repr

def NoteAction.priority : NoteAction → Nat
  | release => 0
  | attack => 1

/-- A note message with the time, in whole notes, at which it is due.  `sequence` counts the events
of the performance. -/
structure Scheduled where
  time : Rat
  action : NoteAction
  sequence : Nat
  channel : Channel
  note : Int
  velocity : Int
  deriving DecidableEq, Repr

namespace Scheduled

/-- The order in which messages go out. -/
def noLater (a b : Scheduled) : Bool :=
  if a.time = b.time then
    if a.action.priority = b.action.priority then decide (a.sequence ≤ b.sequence)
    else decide (a.action.priority < b.action.priority)
  else decide (a.time < b.time)

/-- The message itself, unless its note or its velocity is no data byte. -/
def message? (s : Scheduled) : Option Message := do
  let note ← Message.dataByte? s.note
  let velocity ← Message.dataByte? s.velocity
  match s.action with
  | .attack => return .noteOn s.channel note velocity
  | .release => return .noteOff s.channel note velocity

/-- Whether no message of a queue comes before its parent in the binary heap that the queue lays
out. -/
def isHeap (queue : Array Scheduled) : Bool :=
  (List.range queue.size).all fun child =>
    match queue[child]?, queue[(child - 1) / 2]? with
    | some below, some above => above.noLater below
    | _, _ => true

end Scheduled

namespace Event

/-- Whether an event can be heard. -/
def isAudible (e : Event) : Bool := 0 < e.duration && 0 < e.volume

/-- Why an event whose pitch is outside the MIDI range is refused. -/
def refusal [Limits] (e : Event) : Halt := .told (.pitchOutOfRange e.pitch e.onset)

/-- Whether all numbers of an event can be written. -/
def isWritable [Limits] (e : Event) : Bool :=
  Number.isWritable e.onset && Number.isWritable e.duration &&
    Number.isWritable e.pitch && Number.isWritable e.volume

/-- The two messages of an event. -/
def messages (e : Event) (channel : Channel) (sequence : Nat) : List Scheduled :=
  [{ time := e.onset, action := .attack, sequence, channel, note := e.pitch, velocity := e.volume },
    { time := e.finish, action := .release, sequence, channel, note := e.pitch, velocity := 0 }]

end Event

namespace Performance

/-- The first event whose pitch is outside the MIDI range. -/
def firstOutOfRange? (p : Performance) : Option Event :=
  p.events.find? fun e => !(0 ≤ e.pitch && e.pitch ≤ 127)

/-- The messages of events on the channels of their instruments, in the order of the events. -/
def schedule [Limits] (patchMap : PatchMap) : Nat → List Event → Except Halt (List Scheduled)
  | _, [] => .ok []
  | sequence, e :: events =>
    if e.isAudible then do
      let channel ← patchMap.channel (.text e.instrument)
      let others ← schedule patchMap (sequence + 1) events
      return e.messages channel sequence ++ others
    else if e.isWritable then schedule patchMap sequence events
    else .error .unwritable

/-- Check a performance and queue its messages.  Without a patch map one is made for the instruments
of the performance. -/
def prepare [Limits] (patchMap : Option PatchMap) (p : Performance) :
    Except Halt (PatchMap × List Scheduled) :=
  match p.firstOutOfRange? with
  | some e => .error e.refusal
  | none => do
    let patchMap ← match patchMap with
      | some patchMap => .ok patchMap
      | none => PatchMap.forInstruments (p.instruments.map .text)
    let messages ← schedule patchMap 0 p.events
    return (patchMap, messages.mergeSort Scheduled.noLater)

end Performance

end MusicAlgebra
