import MusicAlgebra.Midi.Playback
import MusicAlgebra.Performance.Interpreter
import MusicAlgebra.Score.Demo
import MusicAlgebra.Settings.Basic

/-!
# The program

The program reads its settings, performs the short piece with them and plays it.  That playing fails
is told to the user and ends the program regularly.
-/

namespace MusicAlgebra.Program

variable {m : Type → Type} [Monad m]

/-- The name of the document that holds the settings. -/
def settingsDocument : String := "config.yaml"

/-- The settings of the program.  Without a document every setting has its default. -/
def settings [Limits] (world : World m) (text : Option String) : m (Except Rejection Settings) := do
  match text with
  | none =>
    world.report ⟨.warning, .settings,
      s!"Config file {settingsDocument} not found. Using defaults."⟩
    return .ok {}
  | some text =>
    match Settings.documentOf text with
    | .error cause => return .error cause
    | .ok document =>
      world.report (.info .settings s!"Loaded config from {settingsDocument}")
      return Settings.ofDocument document

/-- The short piece as it is performed with some settings. -/
def performance [Limits] (s : Settings) : Except Halt Performance := do
  let players ← s.players.mapError .refused
  ((Operand.music Demo.piece).perform players s.context).mapError .unperformed

/-- What the user is told when playing has come to an end, unless it came to none. -/
def verdict : Except Halt RenderState → Except Halt Notice
  | .ok state => .ok (.info .program s!"Finished: {state.name}")
  | .error (.failed cause) => .ok (.error .program s!"Playback failed: {cause.message}")
  | .error halt => .error halt

/-- Play the short piece with some settings. -/
def playWith [Limits] (world : World m) (s : Settings) : m (Except Halt Unit) := do
  match performance s with
  | .error halt => return .error halt
  | .ok p =>
    world.report (.info .program
      s!"{p.events.length} events, {Number.write p.duration} whole notes")
    match verdict (← world.play p { output := s.device, beatRate := s.beatRate.datum }) with
    | .error halt => return .error halt
    | .ok notice =>
      world.report notice
      return .ok ()

/-- The whole program, given its settings document if there is one. -/
def run [Limits] (world : World m) (document : Option String) : m (Except Halt Unit) := do
  world.report (.info .program "Euterpe starting...")
  match ← settings world document with
  | .error cause => return .error (.refused cause)
  | .ok s => playWith world s

end MusicAlgebra.Program
