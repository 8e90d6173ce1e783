import MusicAlgebra.Rejection
import MusicAlgebra.Text.Blank

/-!
# General MIDI instruments

An instrument is one of the 128 melodic programs or the drum kit.  Each has one canonical name;
other spellings of it, and program numbers, are brought to that name by `Instrument.ofDatum?`.
-/

namespace MusicAlgebra

/-- A General MIDI instrument. -/
inductive Instrument where
  | melodic (program : Fin 128)
  | percussion
  deriving DecidableEq, Repr

namespace Instrument

/-- The names of the melodic programs, in the order of their numbers. -/
def melodicNames : List String := [
    -- Piano
    "acoustic_grand_piano", "bright_acoustic_piano", "electric_grand_piano",
    "honky_tonk_piano", "rhodes_piano", "chorused_piano", "harpsichord", "clavinet",
    -- Chromatic percussion
    "celesta", "glockenspiel", "music_box", "vibraphone", "marimba", "xylophone",
    "tubular_bells", "dulcimer",
    -- Organ
    "hammond_organ", "percussive_organ", "rock_organ", "church_organ", "reed_organ",
    "accordion", "harmonica", "tango_accordion",
    -- Guitar
    "acoustic_guitar_nylon", "acoustic_guitar_steel", "electric_guitar_jazz",
    "electric_guitar_clean", "electric_guitar_muted", "overdriven_guitar",
    "distortion_guitar", "guitar_harmonics",
    -- Bass
    "acoustic_bass", "electric_bass_fingered", "electric_bass_picked", "fretless_bass",
    "slap_bass_1", "slap_bass_2", "synth_bass_1", "synth_bass_2",
    -- Strings
    "violin", "viola", "cello", "contrabass", "tremolo_strings", "pizzicato_strings",
    "orchestral_harp", "timpani",
    -- Ensemble
    "string_ensemble_1", "string_ensemble_2", "synth_strings_1", "synth_strings_2",
    "choir_aahs", "voice_oohs", "synth_voice", "orchestra_hit",
    -- Brass
    "trumpet", "trombone", "tuba", "muted_trumpet", "french_horn", "brass_section",
    "synth_brass_1", "synth_brass_2",
    -- Reed
    "soprano_sax", "alto_sax", "tenor_sax", "baritone_sax", "oboe", "english_horn",
    "bassoon", "clarinet",
    -- Pipe
    "piccolo", "flute", "recorder", "pan_flute", "blown_bottle", "shakuhachi", "whistle",
    "ocarina",
    -- Synth lead
    "lead_1_square", "lead_2_sawtooth", "lead_3_calliope", "lead_4_chiff", "lead_5_charang",
    "lead_6_voice", "lead_7_fifths", "lead_8_bass_lead",
    -- Synth pad
    "pad_1_new_age", "pad_2_warm", "pad_3_polysynth", "pad_4_choir", "pad_5_bowed",
    "pad_6_metallic", "pad_7_halo", "pad_8_sweep",
    -- Synth effects
    "fx_1_rain", "fx_2_soundtrack", "fx_3_crystal", "fx_4_atmosphere", "fx_5_brightness",
    "fx_6_goblins", "fx_7_echoes", "fx_8_sci_fi",
    -- Ethnic
    "sitar", "banjo", "shamisen", "koto", "kalimba", "bagpipe", "fiddle", "shanai",
    -- Percussive
    "tinkle_bell", "agogo", "steel_drums", "woodblock", "taiko_drum", "melodic_drum",
    "synth_drum", "reverse_cymbal",
    -- Sound effects
    "guitar_fret_noise", "breath_noise", "seashore", "bird_tweet", "telephone_ring",
    "helicopter", "applause", "gunshot"]

theorem melodicNames_length : melodicNames.length = 128 := by decide +kernel

theorem melodicNames_nodup : melodicNames.Nodup := by decide +kernel

/-- The canonical name. -/
def name : Instrument → String
  | melodic program => melodicNames.get (program.cast melodicNames_length.symm)
  | percussion => "percussion"

/-- The piano, which plays where no instrument is set. -/
def standard : Instrument := melodic ⟨0, by decide⟩

/-- The number that a program change selects.  The drum kit has none of its own. -/
def program : Instrument → Fin 128
  | melodic program => program
  | percussion => ⟨0, by decide⟩

/-- The instrument with a canonical name. -/
def ofName? (name : String) : Option Instrument :=
  if name = "percussion" then some percussion
  else (melodicNames.findFinIdx? (· == name)).map fun index =>
    melodic (index.cast melodicNames_length)

theorem name_of_ofName? {name : String} {i : Instrument} (h : ofName? name = some i) :
    i.name = name := by
  unfold ofName? at h
  split at h
  · cases h
    simp_all [Instrument.name]
  · obtain ⟨index, found, rfl⟩ := Option.map_eq_some_iff.1 h
    simpa [Instrument.name] using (List.findFinIdx?_eq_some_iff.1 found).1

/-- The small letter of a capital.  The Kelvin sign is the one capital outside ASCII whose small
letter occurs in the name of an instrument. -/
def smallLetter (c : Char) : Char :=
  if c = '\u212a' then 'k' else c.toLower

/-- A spelling in the form of canonical names: trimmed, in small letters, with underscores for
spaces and hyphens. -/
def normalSpelling (spelling : String) : String :=
  String.ofList <| (Text.trim spelling.toList).map fun c =>
    if c = ' ' ∨ c = '-' then '_' else smallLetter c

/-- The instrument that a datum names: a spelling of its name, or a program number. -/
def ofDatum? : Datum → Option Instrument
  | .text spelling => ofName? (normalSpelling spelling)
  | .int number =>
    if inRange : 0 ≤ number ∧ number < 128 then some (melodic ⟨number.toNat, by omega⟩) else none
  | _ => none

/-- The program of an unchecked canonical name.  Other spellings are refused. -/
def programOf (given : Datum) : Except Rejection (Fin 128) :=
  if given.isNameable then
    match given with
    | .text name =>
      ((ofName? name).map fun i => .ok i.program).getD (.error (.unknownInstrument given))
    | _ => .error (.unknownInstrument given)
  else .error (.unusableName given)

/-- The MIDI channel that is kept for the drum kit, counted from zero. -/
def percussionChannel : Fin 16 := ⟨9, by decide⟩

example : ofDatum? (.text " Acoustic-Bass") = some (melodic 32) := by decide +kernel

end Instrument

end MusicAlgebra
