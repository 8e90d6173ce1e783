import MusicAlgebra.Midi.Output
import MusicAlgebra.Midi.Rendering

/-!
# Playback

To play a performance an output is chosen and opened, a renderer streams to it, and the output is
closed again on every path.  Signals that ask the program to end are turned into requests to stop
while the performance is played.
-/

namespace MusicAlgebra

/-- The signals that ask a program to end. -/
inductive Signal where
  | interrupt
  | terminate
  deriving DecidableEq, Repr

def Signal.all : List Signal := [interrupt, terminate]

/-- A stage together with what it takes to set one up: the outputs of the system, its signals, and
requests to stop. -/
structure World (m : Type → Type) extends Stage m where
  /-- The names of all outputs, or why they cannot be listed. -/
  outputs : m (Except String (List String))
  openOutput : String → m (Except String Unit)
  closeOutput : m (Except String Unit)
  /-- Let a signal request a stop, and tell whether that is possible. -/
  handle : Signal → m Bool
  unhandle : Signal → m Unit
  /-- Make a new request to stop, which nobody has made yet. -/
  renewRequest : m Unit
  /-- Whether the task was given up after the last pause from which it could be called back. -/
  givenUp : m Bool

namespace World

variable {m : Type → Type} [Monad m] {α : Type}

/-- Choose an output and open it. -/
def select (world : World m) (requested : Option String) : m (Except RenderFailure String) := do
  match ← world.outputs with
  | .error reason => return .error (.listingFailed reason)
  | .ok names =>
    let listed := (Datum.list (names.map .text)).describe
    world.report (.info .outputs s!"Available MIDI outputs: {listed}")
    match OutputChoice.choose names requested with
    | .error cause => return .error cause
    | .ok choice =>
      choice.notice.forM world.report
      match ← world.openOutput choice.name with
      | .error reason => return .error (.openingFailed choice.name reason)
      | .ok () =>
        world.report (.info .outputs s!"Opened MIDI output: {choice.name}")
        return .ok choice.name

/-- Close the output.  A failure to close is only reported. -/
def close (world : World m) (name : String) : m Unit := do
  match ← world.closeOutput with
  | .ok () => world.report (.info .renderer s!"Closed MIDI output: {name}")
  | .error _ => world.report (.error .renderer s!"Failed to close MIDI output: {name}")

/-- Do something with an open output, which is closed afterwards. -/
def withOutput (world : World m) (requested : Option String) (body : m α) :
    m (Except RenderFailure α) := do
  match ← world.select requested with
  | .error cause => return .error cause
  | .ok name =>
    let answer ← body
    world.close name
    return .ok answer

/-- Let signals request a stop, and tell which of them do. -/
def handleAll (world : World m) : List Signal → m (List Signal)
  | [] => return []
  | signal :: signals => do
    let handled ← world.handle signal
    let others ← world.handleAll signals
    return if handled then signal :: others else others

/-- How a performance is to be played. -/
structure Wishes where
  output : Option String := none
  beatRate : Datum := BeatRate.standard.datum
  patchMap : Option PatchMap := none
  handleSignals : Bool := true

/-- Render a performance on a new renderer. -/
def renderOnce [Limits] (world : World m) (p : Performance) (wishes : Wishes) :
    m (Except Halt RenderState) := do
  match Renderer.build wishes.beatRate wishes.patchMap with
  | .error cause => return .error (.refused cause)
  | .ok r =>
    let (result, _) ← world.render r p
    return result

/-- The end of a task, which is no regular one if the task was given up meanwhile. -/
def settle (world : World m) (result : Except Halt α) : m (Except Halt α) := do
  return if ← world.givenUp then Halt.afterGivingUp result else result

/-- Play a performance on an output until it ends or a stop is requested. -/
def perform [Limits] (world : World m) (p : Performance) (wishes : Wishes) :
    m (Except Halt RenderState) := do
  world.renewRequest
  let handled ← if wishes.handleSignals then world.handleAll Signal.all else pure []
  world.report (.info .renderer "Playing performance. Press Ctrl+C to stop.")
  let answer ← world.withOutput wishes.output (world.renderOnce p wishes)
  handled.forM world.unhandle
  match answer with
  | .error cause => world.settle (.error (.failed cause))
  | .ok result => world.settle result

/-- Play a performance to its end.  When the user breaks the program off, the performance counts as
interrupted. -/
def play [Limits] (world : World m) (p : Performance) (wishes : Wishes) : m
    (Except Halt RenderState) := do
  match ← world.perform p { wishes with handleSignals := true } with
  | .error .brokenOff => return .ok .interrupted
  | result => return result

end World

end MusicAlgebra
