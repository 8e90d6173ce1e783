import MusicAlgebra.Midi.Playback

/-!
# Rehearsals

A rehearsal is a world without devices.  It follows a script, which says what goes wrong and when a
stop is requested, and it keeps a log of all that happens, so that a performance can be tried out
and looked at.  Its clock stands still unless the script moves it.
-/

namespace MusicAlgebra

namespace Rehearsal

/-- A moment of a rehearsal.  Everything is counted from one. -/
inductive Moment where
  /-- Before anything happens. -/
  | outset
  /-- The arrival of an attack. -/
  | attack (count : Nat)
  | pause (count : Nat)
  /-- A look at the clock. -/
  | reading (count : Nat)
  deriving DecidableEq, Repr

/-- Messages that do not arrive. -/
inductive Loss where
  /-- One message of all that are sent. -/
  | message (count : Nat)
  /-- A message and all that follow it. -/
  | onwards (count : Nat)
  /-- One attack of all that are sent. -/
  | attack (count : Nat)
  | everyRelease
  deriving DecidableEq, Repr

/-- What is to happen in a rehearsal. -/
structure Script where
  outputs : List String := []
  listingFault : Option String := none
  openingFault : Option String := none
  closingFails : Bool := false
  /-- Whether signals can be handled. -/
  signals : Bool := true
  /-- When a stop is requested. -/
  stops : List Moment := []
  /-- The pauses during which the task is given up. -/
  abandonments : List Nat := []
  /-- The pauses during which the renderer is asked to render again. -/
  repeats : List Nat := []
  losses : List Loss := []
  /-- The messages at which the user breaks the program off. -/
  breaks : List Nat := []
  /-- How many seconds a message takes. -/
  cost : Float := 0.0
  /-- Whether pauses take the time that they are meant to take. -/
  pausesPass : Bool := false

/-- What is seen of a rehearsal. -/
inductive Entry where
  | arrived (message : Message)
  | lost (message : Message)
  | paused (delay : Float)
  /-- The renderer was asked to render again. -/
  | repeated (answer : Except RenderFailure Unit) (state : RenderState)

end Rehearsal

/-- How far a rehearsal has come. -/
structure Rehearsal where
  script : Rehearsal.Script
  log : Array Rehearsal.Entry := #[]
  notices : Array Notice := #[]
  /-- The outputs that were opened. -/
  opened : Array String := #[]
  /-- How often an output was closed. -/
  closed : Nat := 0
  /-- The signals that are handled. -/
  handled : List Signal := []
  stopRequested : Bool := false
  /-- Whether the task was given up when a stop had been requested already. -/
  givenUp : Bool := false
  clock : Float := 0.0
  /-- How many messages were sent, arrived or not. -/
  messages : Nat := 0
  /-- How many attacks were sent. -/
  attacks : Nat := 0
  /-- How many attacks arrived. -/
  arrivedAttacks : Nat := 0
  pauses : Nat := 0
  readings : Nat := 0

namespace Rehearsal

def note (r : Rehearsal) (entry : Entry) : Rehearsal := { r with log := r.log.push entry }

def notify (r : Rehearsal) (notice : Notice) : Rehearsal :=
  { r with notices := r.notices.push notice }

/-- Request a stop.  Further requests change nothing. -/
def requestStop (r : Rehearsal) : Rehearsal :=
  if r.stopRequested then r
  else { r with stopRequested := true }.notify (.info .cancellation "Cancellation requested")

/-- Request a stop if the script asks for one at a moment. -/
def reach (r : Rehearsal) (moment : Moment) : Rehearsal :=
  if moment ∈ r.script.stops then r.requestStop else r

/-- Whether the script loses a message: the latest of those sent. -/
def loses (r : Rehearsal) (message : Message) : Bool :=
  r.script.losses.any fun loss =>
    match loss, message with
    | .message count, _ => r.messages == count
    | .onwards count, _ => count ≤ r.messages
    | .attack count, .noteOn .. => r.attacks == count
    | .everyRelease, .noteOff .. => true
    | _, _ => false

/-- The reason for which messages are lost. -/
def lossReason : String := "device disconnected"

/-- Count a message as sent. -/
def count (r : Rehearsal) (message : Message) : Rehearsal :=
  match message with
  | .noteOn .. => { r with messages := r.messages + 1, attacks := r.attacks + 1 }
  | _ => { r with messages := r.messages + 1 }

/-- A message arrives. -/
def arrive (r : Rehearsal) (message : Message) : Rehearsal :=
  let r := { r with clock := r.clock + r.script.cost }.note (.arrived message)
  match message with
  | .noteOn .. =>
    { r with arrivedAttacks := r.arrivedAttacks + 1 }.reach (.attack (r.arrivedAttacks + 1))
  | _ => r

def send (r : Rehearsal) (message : Message) : Delivery × Rehearsal :=
  let r := r.count message
  if r.messages ∈ r.script.breaks then (.brokenOff, r)
  else if r.loses message then (.failed lossReason, r.note (.lost message))
  else (.sent, r.arrive message)

/-- A pause.  One that finds a stop requested ends at once, so that giving the task up comes too
late for it. -/
def pause (r : Rehearsal) (delay : Float) (renderer : Renderer) : Waking × Rehearsal :=
  let pauses := r.pauses + 1
  let r := { r with pauses }.note (.paused delay)
  let r := if r.script.pausesPass then { r with clock := r.clock + delay } else r
  let r :=
    if pauses ∈ r.script.repeats then r.note (.repeated renderer.accept renderer.state) else r
  let r := r.reach (.pause pauses)
  if pauses ∈ r.script.abandonments then
    if r.stopRequested then (.stopRequested, { r with givenUp := true }) else (.abandoned, r)
  else (if r.stopRequested then .stopRequested else .elapsed, r)

def now (r : Rehearsal) : Float × Rehearsal :=
  let r := { r with readings := r.readings + 1 }.reach (.reading (r.readings + 1))
  (r.clock, r)

def outputs (r : Rehearsal) : Except String (List String) :=
  match r.script.listingFault with
  | some reason => .error reason
  | none => .ok r.script.outputs

def openOutput (r : Rehearsal) (name : String) : Except String Unit × Rehearsal :=
  match r.script.openingFault with
  | some reason => (.error reason, r)
  | none => (.ok (), { r with opened := r.opened.push name })

def closeOutput (r : Rehearsal) : Except String Unit × Rehearsal :=
  (if r.script.closingFails then .error lossReason else .ok (), { r with closed := r.closed + 1 })

def handle (r : Rehearsal) (signal : Signal) : Bool × Rehearsal :=
  if r.script.signals then (true, { r with handled := signal :: r.handled }) else (false, r)

def unhandle (r : Rehearsal) (signal : Signal) : Rehearsal :=
  { r with handled := r.handled.erase signal }

/-- The world of rehearsals. -/
def world : World (StateM Rehearsal) where
  send message := fun r => r.send message
  pause delay renderer := fun r => r.pause delay renderer
  now := Rehearsal.now
  stopRequested := fun r => (r.stopRequested, r)
  report notice := modify (·.notify notice)
  outputs := fun r => (r.outputs, r)
  openOutput name := fun r => r.openOutput name
  closeOutput := Rehearsal.closeOutput
  handle signal := fun r => r.handle signal
  unhandle signal := modify (·.unhandle signal)
  renewRequest := modify fun r => { r with stopRequested := false }.reach .outset
  givenUp := fun r => (r.givenUp, r)

/-- The beginning of a rehearsal, before any request to stop is made. -/
def start (script : Script) : Rehearsal where
  script := script

/-- Try out the rendering of a performance. -/
def render [Limits] (script : Script) (renderer : Renderer) (p : Performance) :
    (Except Halt RenderState × Renderer) × Rehearsal :=
  (do
    world.renewRequest
    let (result, renderer) ← world.render renderer p
    return (← world.settle result, renderer) : StateM Rehearsal _).run (start script)

end Rehearsal

end MusicAlgebra
