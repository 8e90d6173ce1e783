import MusicAlgebra.Midi.Halt
import MusicAlgebra.Midi.Queue
import MusicAlgebra.Midi.Stage

/-!
# Rendering

A performance is streamed message by message, each at its time after the start.  Pauses are measured
against the clock, so that late messages do not delay the following ones.  However the streaming
ends, the renderer then tries to release all notes that still sound.
-/

namespace MusicAlgebra

/-- How the streaming of a queue ended. -/
inductive Ending where
  | played
  /-- A stop was requested while messages were left. -/
  | stopped
  | abandoned
  | brokenOff
  | faulty (reason : String)
  deriving DecidableEq, Repr

namespace Stage

variable {m : Type → Type} [Monad m]

/-- Pause for some seconds, if there is anything to wait for. -/
def idle (stage : Stage m) (r : Renderer) (delay : Float) : m Waking :=
  if delay > 0.0 then stage.pause delay r else return .elapsed

/-- Send a scheduled message, unless a stop has been requested: no new note may start then. -/
def deliver (stage : Stage m) (next : Scheduled) : m (Except Ending Message) := do
  if ← stage.stopRequested then return .error .stopped
  else
    match next.message? with
    | none => return .error (.faulty Message.dataByteReason)
    | some message =>
      match ← stage.send message with
      | .sent => return .ok message
      | .failed reason => return .error (.faulty reason)
      | .brokenOff => return .error .brokenOff

/-- Send the next message of a queue when it is due, unless something ends the streaming first. -/
def turn (stage : Stage m) (start : Float) (r : Renderer) (next : Scheduled) :
    m (Except Ending Message) := do
  if ← stage.stopRequested then return .error .stopped
  else
    match r.beatRate.seconds next.time with
    | .error fault => return .error (.faulty fault.message)
    | .ok seconds =>
      let now ← stage.now
      match ← stage.idle r (start + seconds - now) with
      | .stopRequested => return .error .stopped
      | .abandoned => return .error .abandoned
      | .elapsed => stage.deliver next

/-- Send the messages of a queue. -/
def stream (stage : Stage m) (start : Float) : List Scheduled → Renderer → m (Ending × Renderer)
  | [], r => return (.played, r)
  | next :: queue, r => do
    match ← stage.turn start r next with
    | .ok message => stage.stream start queue (r.after message)
    | .error ending => return (ending, r)

/-- Select the instruments and send the messages of a queue. -/
def streamFrom (stage : Stage m) (patchMap : PatchMap) (queue : List Scheduled) (r : Renderer) :
    m (Ending × Renderer) := do
  match ← stage.sendAll patchMap.programChanges with
  | .failed reason => return (.faulty reason, r)
  | .brokenOff => return (.brokenOff, r)
  | .sent =>
    let start ← stage.now
    stage.stream start queue r

/-- Release all that sounds after streaming has gone wrong.  That a release does not arrive is
reported, but does not hide what went wrong before. -/
def quietenAfter (stage : Stage m) (r : Renderer) (state : RenderState) (halt : Halt) :
    m (Except Halt RenderState × Renderer) := do
  match ← stage.quieten r with
  | (.brokenOff, r) => return (.error .brokenOff, r)
  | (.sent, r) => return (.error halt, { r with state })
  | (.failed _, r) =>
    stage.report (.error .renderer "Failed to release sounding notes")
    return (.error halt, { r with state })

/-- Leave the renderer as the end of its streaming demands. -/
def conclude (stage : Stage m) (ending : Ending) (r : Renderer) :
    m (Except Halt RenderState × Renderer) := do
  match ending with
  | .played =>
    stage.report (.info .renderer "Render complete")
    return (.ok .stopped, { r with state := .stopped })
  | .stopped =>
    let released := r.sounding.total
    match ← stage.quieten r with
    | (.brokenOff, r) => return (.error .brokenOff, r)
    | (.failed reason, r) =>
      return (.error (.failed (.releaseFailed reason)), { r with state := .failed })
    | (.sent, r) =>
      stage.report (.info .renderer s!"Render interrupted: released {released} sounding notes")
      return (.ok .interrupted, { r with state := .interrupted })
  | .abandoned =>
    stage.report (.info .renderer "Render task cancelled")
    stage.quietenAfter r .interrupted .abandoned
  | .brokenOff => return (.error .brokenOff, r)
  | .faulty reason => stage.quietenAfter r .failed (.failed (.sendFailed reason))

/-- Announce a queue and play it, on a renderer that counts as streaming by then.  If the rate cannot
be told, nothing is sent, and nobody takes the streaming back. -/
def renderQueue [Limits] (stage : Stage m) (patchMap : PatchMap) (queue : List Scheduled)
    (r : Renderer) :
    m (Except Halt RenderState × Renderer) := do
  if r.beatRate.isWritable then
    let notes := queue.length / 2
    stage.report (.info .renderer
      s!"Rendering {notes} notes on {patchMap.size} channels at {r.beatRate.text} BPM")
    let (ending, r) ← stage.streamFrom patchMap queue r
    stage.conclude ending r
  else return (.error .unwritable, r)

/-- Play a performance.  A performance that cannot be prepared sends nothing.  The renderer then has
failed, unless the cause itself could not be told: that leaves it as it was. -/
def render [Limits] (stage : Stage m) (r : Renderer) (p : Performance) :
    m (Except Halt RenderState × Renderer) := do
  match r.accept with
  | .error cause => return (.error (.failed cause), r)
  | .ok () =>
    match p.prepare r.patchMap with
    | .error (.failed cause) => return (.error (.failed cause), { r with state := .failed })
    | .error halt => return (.error halt, r)
    | .ok (patchMap, queue) =>
      stage.renderQueue patchMap queue { r with state := .streaming, sounding := .silent }

end Stage

end MusicAlgebra
