import MusicAlgebra.Midi.PatchMap
import MusicAlgebra.Midi.Sounding
import MusicAlgebra.Theory.BeatRate

/-!
# Renderers

A renderer streams performances to a MIDI output, one after the other.  It remembers how the last
one ended and which notes were left sounding.
-/

namespace MusicAlgebra

/-- Where a renderer stands. -/
inductive RenderState where
  /-- Nothing has been rendered yet. -/
  | idle
  /-- Messages are being sent. -/
  | streaming
  /-- Every message was sent. -/
  | stopped
  /-- A stop was requested before every message was sent. -/
  | interrupted
  /-- The performance could not be prepared, or its messages could not be sent. -/
  | failed
  deriving DecidableEq, Repr

namespace RenderState

def all : List RenderState := [idle, streaming, stopped, interrupted, failed]

def name : RenderState → String
  | idle => "idle"
  | streaming => "streaming"
  | stopped => "stopped"
  | interrupted => "interrupted"
  | failed => "failed"

end RenderState

/-- A renderer has a beat rate and may have a patch map for all its performances. -/
structure Renderer where
  beatRate : BeatRate
  patchMap : Option PatchMap := none
  state : RenderState := .idle
  sounding : Sounding := {}

namespace Renderer

/-- A renderer at an unchecked beat rate. -/
def build (rate : Datum) (patchMap : Option PatchMap) : Except Rejection Renderer :=
  (BeatRate.ofDatum rate).map fun beatRate => { beatRate, patchMap }

/-- A renderer takes no performance while it streams another. -/
def accept (r : Renderer) : Except RenderFailure Unit :=
  if r.state = .streaming then .error .alreadyStreaming else .ok ()

/-- The renderer after a message has gone out. -/
def after (r : Renderer) (message : Message) : Renderer :=
  { r with sounding := r.sounding.after message }

end Renderer

end MusicAlgebra
