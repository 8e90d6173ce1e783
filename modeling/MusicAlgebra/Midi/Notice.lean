/-!
# Notices

What the program tells its user while it runs.  Each notice has a level and names the part of the
program that it comes from.
-/

namespace MusicAlgebra

inductive Notice.Level where
  | info
  | warning
  | error
  deriving DecidableEq, Repr

/-- The parts of the program that give notices. -/
inductive Notice.Source where
  | program
  | settings
  | outputs
  | renderer
  | cancellation
  deriving DecidableEq, Repr

structure Notice where
  level : Notice.Level
  source : Notice.Source
  text : String
  deriving DecidableEq, Repr

namespace Notice

def Level.name : Level → String
  | info => "INFO"
  | warning => "WARNING"
  | error => "ERROR"

/-- The name under which a part of the program is known in its log. -/
def Source.name : Source → String
  | program => "euterpe.__main__"
  | settings => "euterpe.config"
  | outputs => "euterpe.midi_utils"
  | renderer => "euterpe.renderer"
  | cancellation => "euterpe.cancellation"

def info (source : Source) (text : String) : Notice := ⟨.info, source, text⟩

def error (source : Source) (text : String) : Notice := ⟨.error, source, text⟩

/-- The notice as a line of the log. -/
def line (n : Notice) : String := n.level.name ++ ":" ++ n.source.name ++ ":" ++ n.text

end Notice

end MusicAlgebra
