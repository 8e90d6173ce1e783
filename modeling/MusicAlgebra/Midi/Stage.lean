import MusicAlgebra.Midi.Notice
import MusicAlgebra.Midi.Renderer

/-!
# Stages

A stage is all that a renderer meets while it plays: the output that takes its messages, the clock,
the pauses between messages, the request to stop and the log.  What a stage does is given by actions
of a monad, so that the same rendering runs against devices and against a script.
-/

namespace MusicAlgebra

/-- What became of a message. -/
inductive Delivery where
  | sent
  | failed (reason : String)
  /-- The user broke the program off while the message was on its way. -/
  | brokenOff
  deriving DecidableEq, Repr

/-- How a pause ended. -/
inductive Waking where
  | elapsed
  /-- A stop was requested. -/
  | stopRequested
  /-- The task that renders was given up. -/
  | abandoned
  deriving DecidableEq, Repr

/-- The surroundings of a renderer.  `pause` is told what the renderer looks like meanwhile, since
others may look at it then. -/
structure Stage (m : Type → Type) where
  send : Message → m Delivery
  pause : Float → Renderer → m Waking
  /-- The clock, in seconds. -/
  now : m Float
  /-- Whether a stop has been requested. -/
  stopRequested : m Bool
  report : Notice → m Unit

namespace Stage

variable {m : Type → Type} [Monad m]

/-- Send messages until one does not arrive. -/
def sendAll (stage : Stage m) : List Message → m Delivery
  | [] => return .sent
  | message :: messages => do
    match ← stage.send message with
    | .sent => stage.sendAll messages
    | .failed reason => return .failed reason
    | .brokenOff => return .brokenOff

/-- Release every note as often as it was attacked, and tell which notes are left.  A note is left
until its last release has arrived, and the first release that does not arrive ends it. -/
def flush (stage : Stage m) :
    List ((Channel × DataByte) × Nat) → m (Delivery × List ((Channel × DataByte) × Nat))
  | [] => return (.sent, [])
  | ((channel, note), count) :: others => do
    match ← stage.sendAll (List.replicate count (.release channel note)) with
    | .sent => stage.flush others
    | .failed reason => return (.failed reason, ((channel, note), count) :: others)
    | .brokenOff => return (.brokenOff, ((channel, note), count) :: others)

/-- Release all that sounds on a renderer. -/
def quieten (stage : Stage m) (r : Renderer) : m (Delivery × Renderer) := do
  let (delivery, left) ← stage.flush r.sounding.counts
  return (delivery, { r with sounding := ⟨left⟩ })

end Stage

end MusicAlgebra
