import MusicAlgebra.Performance.Registry
import MusicAlgebra.Settings.Document
import MusicAlgebra.Theory.BeatRate

/-!
# Settings

Settings choose the beat rate, the output device, the amounts of the staccato and the legato player
and the volume of the outermost context.  Every setting has a default and is checked when the
settings are built; the ranges of the players' amounts are left to the players.
-/

namespace MusicAlgebra

structure Settings where
  beatRate : BeatRate := .standard
  /-- The name of an output, none to have one chosen. -/
  device : Option String := none
  staccatoFraction : Rat := Style.usualFraction
  legatoOverlap : Rat := Style.usualOverlap
  volume : Volume := .ofContext

namespace Settings

/-- Unchecked settings; a missing one takes its default. -/
structure Draft where
  beatRate : Option Datum := none
  device : Option Datum := none
  staccatoFraction : Option Datum := none
  legatoOverlap : Option Datum := none
  volume : Option Datum := none

/-- Check a setting that is present. -/
def orDefault {α : Type} (default : α) (check : Datum → Except Rejection α) :
    Option Datum → Except Rejection α
  | none => .ok default
  | some given => check given

def deviceOf : Datum → Except Rejection (Option String)
  | .null => .ok none
  | .text name => .ok (some name)
  | given => .error (.deviceInvalid given)

def volumeOf : Datum → Except Rejection Volume
  | .int n => ((Volume.ofInt? n).map Except.ok).getD (.error (.baseVolumeInvalid (.int n)))
  | given => .error (.baseVolumeInvalid given)

/-- Check a draft, from the beat rate to the volume. -/
def ofDraft [Limits] (draft : Draft) : Except Rejection Settings := do
  let beatRate ← orDefault .standard BeatRate.ofDatum draft.beatRate
  let device ← orDefault none deviceOf draft.device
  let staccatoFraction ←
    orDefault Style.usualFraction (·.toRat "staccato_fraction") draft.staccatoFraction
  let legatoOverlap ← orDefault Style.usualOverlap (·.toRat "legato_overlap") draft.legatoOverlap
  let volume ← orDefault .ofContext volumeOf draft.volume
  return { beatRate, device, staccatoFraction, legatoOverlap, volume }

/-- A section of a settings document.  One that is missing or empty has no entries. -/
def sectionOf (document : Datum) (name : String) : Except Rejection Datum :=
  match document.entry? name with
  | none => .ok (.mapping [])
  | some given =>
    if given.isEmpty then .ok (.mapping [])
    else
      match given with
      | .mapping entries => .ok (.mapping entries)
      | _ => .error (.sectionNotMapping name)

/-- The settings in a document: a mapping of sections, or nothing at all. -/
def ofDocument [Limits] : Datum → Except Rejection Settings
  | .null => .ok {}
  | .mapping entries => do
    let document := Datum.mapping entries
    let players ← sectionOf document "players"
    let renderer ← sectionOf document "renderer"
    let midi ← sectionOf document "midi"
    let context ← sectionOf document "context"
    ofDraft {
      beatRate := renderer.entry? "bpm"
      device := midi.entry? "device_name"
      staccatoFraction := players.entry? "staccato_fraction"
      legatoOverlap := players.entry? "legato_overlap"
      volume := context.entry? "volume" }
  | _ => .error .settingsNotMapping

/-- The document that a text holds. -/
def documentOf [Limits] (text : String) : Except Rejection Datum :=
  (Document.read text).mapError .settingsUnreadable

/-- The settings that a text holds. -/
def read [Limits] (text : String) : Except Rejection Settings := do ofDocument (← documentOf text)

/-- The outermost context. -/
def context (s : Settings) : Context := { volume := s.volume.val }

/-- The built-in players with the amounts that are set. -/
def players (s : Settings) : Except Rejection Registry :=
  Registry.standardWith s.staccatoFraction s.legatoOverlap

end Settings

end MusicAlgebra
