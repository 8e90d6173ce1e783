import MusicAlgebra.Program

/-!
# The command line

Plays the short piece on MIDI device files, which are named by the arguments.  The log goes to the
standard error.
-/

namespace MusicAlgebra.Devices

/-- Do something with the output that is open. -/
def withOpen {α : Type} (output : IO.Ref (Option IO.FS.Handle)) (use : IO.FS.Handle → IO α) :
    IO (Except String α) := do
  match ← output.get with
  | none => return .error "no output is open"
  | some handle =>
    try return .ok (← use handle)
    catch fault => return .error (toString fault)

/-- The devices with the given names, of which one at a time is open. -/
def world (names : List String) (output : IO.Ref (Option IO.FS.Handle)) : World IO where
  send message := do
    let written ← withOpen output fun handle => do
      handle.write ⟨message.bytes.toArray⟩
      handle.flush
    match written with
    | .ok () => return .sent
    | .error reason => return .failed reason
  pause delay _ := do
    IO.sleep (delay * 1000.0).ceil.toUInt32
    return .elapsed
  now := do return (← IO.monoNanosNow).toFloat / 1000000000.0
  stopRequested := return false
  report notice := IO.eprintln (Text.shown notice.line)
  outputs := return .ok names
  openOutput name := do
    try
      output.set (some (← IO.FS.Handle.mk name .write))
      return .ok ()
    catch fault => return .error (toString fault)
  closeOutput := do
    let closed ← withOpen output (·.flush)
    output.set none
    return closed
  handle _ := return false
  unhandle _ := return ()
  renewRequest := return ()
  givenUp := return false

/-- The settings document, if there is one. -/
def document : IO (Option String) := do
  try return some (Text.ofPlain (← IO.FS.readFile Program.settingsDocument))
  catch _ => return none

end MusicAlgebra.Devices

open MusicAlgebra.Usual in
def main (arguments : List String) : IO UInt32 := do
  let output ← IO.mkRef none
  let document ← MusicAlgebra.Devices.document
  match ← MusicAlgebra.Program.run (MusicAlgebra.Devices.world arguments output) document with
  | .ok () => return 0
  | .error halt =>
    IO.eprintln (MusicAlgebra.Text.shown halt.message)
    return 1
