import MusicAlgebra.Midi.Renderer
import MusicAlgebra.Proofs.CheckedNumbers

/-!
# What settings are good for

Settings are read from a document and then put to use: a renderer takes the beat rate, the outermost
context the volume, and two of the built-in players the amounts.  Whatever has been read suits the
renderer and the context.  The players' amounts are numbers, but the players want more of them than
that, and find it out only when they are made.
-/

namespace MusicAlgebra.Settings

open Outcome

/-! ## Settings in a document -/

/-- The unchecked setting under a key of a section, none where the section or the key is missing. -/
def raw? (document : Datum) (part key : String) : Option Datum :=
  match document.entry? part with
  | none => none
  | some given => given.entry? key

/-- The sections that a document may have. -/
def parts : List String := ["players", "renderer", "midi", "context"]

/-- A document has a mapping, something empty or nothing where a section is expected. -/
def HasSection (document : Datum) (part : String) : Prop :=
  ∀ given, document.entry? part = some given →
    given.isEmpty = true ∨ ∃ entries, given = .mapping entries

/-- A document of sections: nothing at all, or a mapping of them. -/
structure HasSections (document : Datum) : Prop where
  readable : document = .null ∨ ∃ entries, document = .mapping entries
  sections : ∀ part ∈ parts, HasSection document part

/-- A setting has the value that an unchecked one stands for, or its default. -/
def Chosen {α : Type} (default : α) (StandsFor : Datum → α → Prop) (raw : Option Datum)
    (value : α) : Prop :=
  match raw with
  | none => value = default
  | some given => StandsFor given value

/-- The document of some settings, in which every one that is not left out stands for its value. -/
structure Loads [Limits] (document : Datum) (s : Settings) : Prop extends HasSections document where
  beatRate : Chosen .standard (fun given rate => given = rate.datum)
    (raw? document "renderer" "bpm") s.beatRate
  device : Chosen none
    (fun given device => given = .null ∧ device = none ∨ ∃ name, given = .text name ∧
      device = some name) (raw? document "midi" "device_name") s.device
  staccatoFraction : Chosen Style.usualFraction Datum.Denotes
    (raw? document "players" "staccato_fraction") s.staccatoFraction
  legatoOverlap : Chosen Style.usualOverlap Datum.Denotes
    (raw? document "players" "legato_overlap") s.legatoOverlap
  volume : Chosen .ofContext (fun given (volume : Volume) => given = .int volume.val)
    (raw? document "context" "volume") s.volume

variable {document given : Datum} {s : Settings} {part key : String}

/-! ## Single settings -/

theorem beatRate_ofDatum_eq_ok_iff {rate : BeatRate} :
    BeatRate.ofDatum given = .ok rate ↔ given = rate.datum := by
  constructor
  · intro read
    cases given with
    | int number =>
        rw [BeatRate.ofDatum] at read
        split at read <;> cases read
        rfl
    | float number =>
        rw [BeatRate.ofDatum] at read
        split at read <;> cases read
        rfl
    | _ => cases read
  · rintro rfl
    exact BeatRate.ofDatum_datum rate

theorem deviceOf_eq_ok_iff {device : Option String} :
    deviceOf given = .ok device ↔
      given = .null ∧ device = none ∨ ∃ name, given = .text name ∧ device = some name := by
  cases given <;> simp [deviceOf, eq_comm]

theorem volumeOf_eq_ok_iff {volume : Volume} :
    volumeOf given = .ok volume ↔ given = .int volume.val := by
  cases given with
  | int n =>
      rw [volumeOf, Datum.int.injEq, ← Volume.ofInt?_eq_some_iff]
      cases Volume.ofInt? n <;> simp
  | _ => simp [volumeOf]

/-- A setting is checked where it is present. -/
theorem orDefault_eq_ok_iff {α : Type} {default value : α} {check : Datum → Except Rejection α}
    {StandsFor : Datum → α → Prop} {raw : Option Datum}
    (checked : ∀ {given value}, check given = .ok value ↔ StandsFor given value) :
    orDefault default check raw = .ok value ↔ Chosen default StandsFor raw value := by
  cases raw with
  | none => simp [orDefault, Chosen, eq_comm]
  | some given => exact checked

theorem orDefault_eq_error {α : Type} {default : α} {check : Datum → Except Rejection α}
    {raw : Option Datum} {cause : Rejection}
    (failed : orDefault default check raw = .error cause) :
    ∃ given, raw = some given ∧ check given = .error cause := by
  cases raw with
  | none => cases failed
  | some given => exact ⟨given, rfl, failed⟩

/-! ## Whole documents -/

theorem entry?_of_isEmpty (empty : given.isEmpty = true) (key : String) :
    given.entry? key = none := by
  cases given with
  | mapping entries =>
      rw [List.isEmpty_iff.1 empty]
      rfl
  | _ => rfl

/-- A section is opened, and what is looked up in it is what the document has there. -/
theorem exists_sectionOf (hasSection : HasSection document part) :
    ∃ opened, sectionOf document part = .ok opened ∧
      ∀ key, opened.entry? key = raw? document part key := by
  cases found : document.entry? part with
  | none => exact ⟨.mapping [], by rw [sectionOf, found], fun key => by rw [raw?, found]; rfl⟩
  | some given =>
      by_cases empty : given.isEmpty = true
      · refine ⟨.mapping [], by rw [sectionOf, found]; exact if_pos empty, fun key => ?_⟩
        simp only [raw?, found, entry?_of_isEmpty empty]
        rfl
      · obtain isEmpty | ⟨entries, rfl⟩ := hasSection given found
        · exact absurd isEmpty empty
        · refine ⟨.mapping entries, by rw [sectionOf, found]; exact if_neg empty, fun key => ?_⟩
          rw [raw?, found]

theorem sectionOf_of_not_hasSection (without : ¬ HasSection document part) :
    sectionOf document part = .error (.sectionNotMapping part) := by
  simp only [HasSection, not_forall, not_or, not_exists] at without
  obtain ⟨given, found, full, other⟩ := without
  rw [sectionOf, found]
  dsimp only
  rw [if_neg full]
  cases given with
  | mapping entries => exact absurd rfl (other entries)
  | _ => rfl

/-- The unchecked settings of a document. -/
def draftOf (document : Datum) : Draft where
  beatRate := raw? document "renderer" "bpm"
  device := raw? document "midi" "device_name"
  staccatoFraction := raw? document "players" "staccato_fraction"
  legatoOverlap := raw? document "players" "legato_overlap"
  volume := raw? document "context" "volume"

theorem ofDraft_eq_ok_iff [Limits] {draft : Draft} :
    ofDraft draft = .ok s ↔
      orDefault .standard BeatRate.ofDatum draft.beatRate = .ok s.beatRate ∧
      orDefault none deviceOf draft.device = .ok s.device ∧
      orDefault Style.usualFraction (·.toRat "staccato_fraction") draft.staccatoFraction =
        .ok s.staccatoFraction ∧
      orDefault Style.usualOverlap (·.toRat "legato_overlap") draft.legatoOverlap =
        .ok s.legatoOverlap ∧
      orDefault .ofContext volumeOf draft.volume = .ok s.volume := by
  simp only [ofDraft, bind_eq_ok]
  constructor
  · rintro ⟨_, beatRate, _, device, _, fraction, _, overlap, _, volume, ⟨⟩⟩
    exact ⟨beatRate, device, fraction, overlap, volume⟩
  · rintro ⟨beatRate, device, fraction, overlap, volume⟩
    exact ⟨_, beatRate, _, device, _, fraction, _, overlap, _, volume, rfl⟩

/-- A document of sections is as good as its unchecked settings. -/
theorem ofDocument_eq_ofDraft [Limits] (hasSections : HasSections document) :
    ofDocument document = ofDraft (draftOf document) := by
  obtain ⟨rfl | ⟨entries, rfl⟩, sections⟩ := hasSections
  · rfl
  · obtain ⟨players, playersOpened, playersRaw⟩ := exists_sectionOf (sections "players" (by decide))
    obtain ⟨renderer, rendererOpened, rendererRaw⟩ :=
      exists_sectionOf (sections "renderer" (by decide))
    obtain ⟨midi, midiOpened, midiRaw⟩ := exists_sectionOf (sections "midi" (by decide))
    obtain ⟨context, contextOpened, contextRaw⟩ :=
      exists_sectionOf (sections "context" (by decide))
    simp only [ofDocument, playersOpened, rendererOpened, midiOpened, contextOpened, ok_bind,
      playersRaw, rendererRaw, midiRaw, contextRaw]
    rfl

/-- Any other document is refused for what is no mapping. -/
theorem ofDocument_of_not_hasSections [Limits] (without : ¬ HasSections document) :
    ofDocument document = .error .settingsNotMapping ∨
      ∃ part ∈ parts, ofDocument document = .error (.sectionNotMapping part) := by
  cases document with
  | null =>
      exact absurd ⟨.inl rfl, fun part _ given found => nomatch found⟩ without
  | mapping entries =>
      refine .inr ?_
      -- The sections are opened one after the other, so the first one that is missing counts.
      have missing : ∀ {part}, ¬ HasSection (.mapping entries) part →
          sectionOf (.mapping entries) part = .error (.sectionNotMapping part) :=
        sectionOf_of_not_hasSection
      by_cases players : HasSection (.mapping entries) "players"
      swap
      · exact ⟨"players", by decide, by simp only [ofDocument, missing players, error_bind]⟩
      obtain ⟨_, playersOpened, -⟩ := exists_sectionOf players
      by_cases renderer : HasSection (.mapping entries) "renderer"
      swap
      · exact ⟨"renderer", by decide, by
          simp only [ofDocument, playersOpened, missing renderer, ok_bind, error_bind]⟩
      obtain ⟨_, rendererOpened, -⟩ := exists_sectionOf renderer
      by_cases midi : HasSection (.mapping entries) "midi"
      swap
      · exact ⟨"midi", by decide, by
          simp only [ofDocument, playersOpened, rendererOpened, missing midi, ok_bind, error_bind]⟩
      obtain ⟨_, midiOpened, -⟩ := exists_sectionOf midi
      have context : ¬ HasSection (.mapping entries) "context" := by
        intro context
        refine without ⟨.inr ⟨entries, rfl⟩, ?_⟩
        simpa [parts] using ⟨players, renderer, midi, context⟩
      exact ⟨"context", by decide, by
        simp only [ofDocument, playersOpened, rendererOpened, midiOpened, missing context, ok_bind,
          error_bind]⟩
  | _ => exact .inl rfl

/-- A document holds settings exactly if it stands for them. -/
theorem ofDocument_eq_ok_iff [Limits] : ofDocument document = .ok s ↔ Loads document s := by
  constructor
  · intro read
    have hasSections : HasSections document := by
      by_contra without
      obtain refused | ⟨part, -, refused⟩ := ofDocument_of_not_hasSections without <;>
        cases refused.symm.trans read
    rw [ofDocument_eq_ofDraft hasSections, ofDraft_eq_ok_iff] at read
    obtain ⟨beatRate, device, fraction, overlap, volume⟩ := read
    exact ⟨hasSections, (orDefault_eq_ok_iff beatRate_ofDatum_eq_ok_iff).1 beatRate,
      (orDefault_eq_ok_iff deviceOf_eq_ok_iff).1 device,
      (orDefault_eq_ok_iff Datum.toRat_eq_ok_iff).1 fraction,
      (orDefault_eq_ok_iff Datum.toRat_eq_ok_iff).1 overlap,
      (orDefault_eq_ok_iff volumeOf_eq_ok_iff).1 volume⟩
  · intro loads
    rw [ofDocument_eq_ofDraft loads.toHasSections, ofDraft_eq_ok_iff]
    exact ⟨(orDefault_eq_ok_iff beatRate_ofDatum_eq_ok_iff).2 loads.beatRate,
      (orDefault_eq_ok_iff deviceOf_eq_ok_iff).2 loads.device,
      (orDefault_eq_ok_iff Datum.toRat_eq_ok_iff).2 loads.staccatoFraction,
      (orDefault_eq_ok_iff Datum.toRat_eq_ok_iff).2 loads.legatoOverlap,
      (orDefault_eq_ok_iff volumeOf_eq_ok_iff).2 loads.volume⟩

/-! ## Refused documents -/

variable {cause : Rejection}

/-- Why an unchecked setting of a section is refused. -/
inductive Refuses (given : Datum) : String → Rejection → Prop where
  | beatRate : Refuses given "renderer" (.beatRateInvalid given)
  | device : Refuses given "midi" (.deviceInvalid given)
  | amount (label : String) : Refuses given "players" (given.unread label)
  | volume : Refuses given "context" (.baseVolumeInvalid given)

theorem Refuses.of_not_isInvalidValue [Limits] (refuses : Refuses given part cause)
    (silent : cause.isInvalidValue = false) :
    part = "players" ∧ given.IsInfinite ∨ given.isWritable = false := by
  cases refuses with
  | amount label =>
      exact (Datum.isInvalidValue_unread.1 silent).imp_left fun infinite => ⟨rfl, infinite⟩
  | _ => exact .inr silent

theorem refuses_of_beatRate (failed : BeatRate.ofDatum given = .error cause) :
    Refuses given "renderer" cause := by
  cases given with
  | int number =>
      rw [BeatRate.ofDatum] at failed
      split at failed <;> cases failed
      exact .beatRate
  | float number =>
      rw [BeatRate.ofDatum] at failed
      split at failed <;> cases failed
      exact .beatRate
  | _ =>
      cases failed
      exact .beatRate

theorem refuses_of_deviceOf (failed : deviceOf given = .error cause) :
    Refuses given "midi" cause := by
  cases given <;> cases failed <;> exact .device

theorem refuses_of_toRat [Limits] {label : String} (failed : given.toRat label = .error cause) :
    Refuses given "players" cause := by
  have meaningless : ∀ q, ¬ given.Denotes q := by
    intro q denotes
    cases (Datum.toRat_of_denotes denotes).symm.trans failed
  cases (Datum.toRat_of_not_denotes meaningless).symm.trans failed
  exact .amount label

theorem refuses_of_volumeOf (failed : volumeOf given = .error cause) :
    Refuses given "context" cause := by
  cases given with
  | int n =>
      rw [volumeOf] at failed
      cases found : Volume.ofInt? n with
      | none =>
          rw [found] at failed
          cases failed
          exact .volume
      | some volume =>
          rw [found] at failed
          cases failed
  | _ =>
      cases failed
      exact .volume

theorem exists_refused {α : Type} {default : α} {check : Datum → Except Rejection α}
    (refuses : ∀ {given}, check given = .error cause → Refuses given part cause)
    (failed : orDefault default check (raw? document part key) = .error cause) :
    ∃ part key given, raw? document part key = some given ∧ Refuses given part cause := by
  obtain ⟨given, present, failed⟩ := orDefault_eq_error failed
  exact ⟨part, key, given, present, refuses failed⟩

/-- Settings are refused for one that is present. -/
theorem exists_refused_of_ofDraft [Limits] (failed : ofDraft (draftOf document) = .error cause) :
    ∃ part key given, raw? document part key = some given ∧ Refuses given part cause := by
  obtain failed | ⟨_, -, failed⟩ := bind_eq_error.1 failed
  · exact exists_refused refuses_of_beatRate failed
  obtain failed | ⟨_, -, failed⟩ := bind_eq_error.1 failed
  · exact exists_refused refuses_of_deviceOf failed
  obtain failed | ⟨_, -, failed⟩ := bind_eq_error.1 failed
  · exact exists_refused refuses_of_toRat failed
  obtain failed | ⟨_, -, failed⟩ := bind_eq_error.1 failed
  · exact exists_refused refuses_of_toRat failed
  obtain failed | ⟨_, -, failed⟩ := bind_eq_error.1 failed
  · exact exists_refused refuses_of_volumeOf failed
  · cases failed

/-- A refusal of a document reports an invalid value, unless an amount is infinite or a setting
holds an integer of too many digits to be quoted. -/
theorem exists_speechless_of_ofDocument [Limits] (failed : ofDocument document = .error cause)
    (silent : cause.isInvalidValue = false) :
    ∃ part key given, raw? document part key = some given ∧
      (part = "players" ∧ given.IsInfinite ∨ given.isWritable = false) := by
  by_cases hasSections : HasSections document
  · rw [ofDocument_eq_ofDraft hasSections] at failed
    obtain ⟨part, key, given, present, refuses⟩ := exists_refused_of_ofDraft failed
    exact ⟨part, key, given, present, refuses.of_not_isInvalidValue silent⟩
  · obtain refused | ⟨part, -, refused⟩ := ofDocument_of_not_hasSections hasSections <;>
      cases refused.symm.trans failed <;> cases silent

/-! ## Settings in use -/

/-- A renderer runs at the beat rate. -/
theorem renderer_build (s : Settings) :
    Renderer.build s.beatRate.datum none = .ok { beatRate := s.beatRate } := by
  rw [Renderer.build, BeatRate.ofDatum_datum]
  rfl

/-- A beat rate that no renderer takes is in no settings. -/
theorem refused_of_renderer_build [Limits] (present : raw? document "renderer" "bpm" = some given)
    (failed : Renderer.build given none = .error cause) : ofDocument document ≠ .ok s := by
  intro read
  have stands := (ofDocument_eq_ok_iff.1 read).beatRate
  rw [present] at stands
  cases (show given = s.beatRate.datum from stands)
  cases s.renderer_build.symm.trans failed

theorem context_volume (s : Settings) : 0 ≤ s.context.volume ∧ s.context.volume ≤ 127 := by
  have small := s.volume.isLt
  constructor <;> simp only [context] <;> omega

/-- The built-in players with amounts that suit them. -/
def fourPlayers (s : Settings) (inside : 0 < s.staccatoFraction ∧ s.staccatoFraction ≤ 1)
    (one_le : 1 ≤ s.legatoOverlap) : Registry where
  entries := [("default", .builtIn .literal),
    ("staccato", .builtIn (.staccato s.staccatoFraction inside)),
    ("legato", .builtIn (.legato s.legatoOverlap one_le)), ("fancy", .builtIn .fancy)]

theorem players_of_suited (inside : 0 < s.staccatoFraction ∧ s.staccatoFraction ≤ 1)
    (one_le : 1 ≤ s.legatoOverlap) : s.players = .ok (s.fourPlayers inside one_le) := by
  rw [players, Registry.standardWith, Style.staccatoOf, dif_pos inside, ok_bind, Style.legatoOf,
    dif_pos one_le, ok_bind]
  rfl

theorem players_of_staccato (outside : ¬ (0 < s.staccatoFraction ∧ s.staccatoFraction ≤ 1)) :
    s.players = .error .staccatoOutOfRange := by
  rw [players, Registry.standardWith, Style.staccatoOf, dif_neg outside, error_bind]

theorem players_of_legato (inside : 0 < s.staccatoFraction ∧ s.staccatoFraction ≤ 1)
    (short : ¬ 1 ≤ s.legatoOverlap) : s.players = .error .legatoBelowOne := by
  rw [players, Registry.standardWith, Style.staccatoOf, dif_pos inside, ok_bind, Style.legatoOf,
    dif_neg short, error_bind]

/-- **Settings are good for a renderer and a context.**  A document holds settings exactly if it
stands for them.  Their beat rate is taken by a renderer, a beat rate that no renderer takes is in
no settings, and their volume is in the range.  The players are made, and play with the amounts that
are set, exactly if the amounts suit them.  A document that holds none is reported as invalid,
unless an amount is infinite or a setting too long to be quoted. -/
theorem loaded_settings_serve [Limits] (document : Datum) (s : Settings) :
    (ofDocument document = .ok s ↔ Loads document s) ∧
    Renderer.build s.beatRate.datum none = .ok { beatRate := s.beatRate } ∧
    (0 ≤ s.context.volume ∧ s.context.volume ≤ 127) ∧
    (∀ inside one_le, s.players = .ok (s.fourPlayers inside one_le)) ∧
    (¬ (0 < s.staccatoFraction ∧ s.staccatoFraction ≤ 1) →
      s.players = .error .staccatoOutOfRange) ∧
    (0 < s.staccatoFraction ∧ s.staccatoFraction ≤ 1 → ¬ 1 ≤ s.legatoOverlap →
      s.players = .error .legatoBelowOne) ∧
    (∀ given cause, raw? document "renderer" "bpm" = some given →
      Renderer.build given none = .error cause → ofDocument document ≠ .ok s) ∧
    ∀ cause, ofDocument document = .error cause → cause.isInvalidValue = false →
      ∃ part key given, raw? document part key = some given ∧
        (part = "players" ∧ given.IsInfinite ∨ given.isWritable = false) :=
  ⟨ofDocument_eq_ok_iff, s.renderer_build, s.context_volume, players_of_suited,
    players_of_staccato, players_of_legato, fun _ _ => refused_of_renderer_build,
    fun _ => exists_speechless_of_ofDocument⟩

/-- A slow beat and short staccato notes. -/
def slowDocument : Datum :=
  .mapping [("renderer", .mapping [("bpm", .int 40)]),
    ("players", .mapping [("staccato_fraction", .text "1/3")]), ("context", .null)]

def slowSettings : Settings := { beatRate := .whole 40 (by decide), staccatoFraction := 1 / 3 }

open Usual

theorem loads_slowDocument : Loads slowDocument slowSettings := by
  refine ⟨⟨.inr ⟨_, rfl⟩, ?_⟩, rfl, rfl, ?_, rfl, rfl⟩
  · intro part member given found
    simp only [parts, List.mem_cons, List.not_mem_nil, or_false] at member
    obtain rfl | rfl | rfl | rfl := member
    · cases found
      exact .inr ⟨_, rfl⟩
    · cases found
      exact .inr ⟨_, rfl⟩
    · cases found
    · cases found
      exact .inl rfl
  · exact Datum.Denotes.text (Number.read_eq_some_iff.1 (by decide +kernel))

/-- The slow document is read, its staccato player made, and a beat rate of zero would have been
refused by both. -/
theorem slowDocument_serves :
    Loads slowDocument slowSettings ∧ ofDocument slowDocument = .ok slowSettings ∧
      (∃ registry, slowSettings.players = .ok registry ∧
        (registry.find? "staccato").map Player.name = some "staccato") ∧
      Renderer.build (.int 0) none = .error (.beatRateInvalid (.int 0)) ∧
      ofDocument (.mapping [("renderer", .mapping [("bpm", .int 0)])]) ≠ .ok slowSettings := by
  have inside : 0 < slowSettings.staccatoFraction ∧ slowSettings.staccatoFraction ≤ 1 := by
    decide +kernel
  have one_le : 1 ≤ slowSettings.legatoOverlap := by decide +kernel
  obtain ⟨loaded, -, -, players, -⟩ := loaded_settings_serve slowDocument slowSettings
  obtain ⟨-, -, -, -, -, -, refused, -⟩ :=
    loaded_settings_serve (.mapping [("renderer", .mapping [("bpm", .int 0)])]) slowSettings
  have stopped : Renderer.build (.int 0) none = .error (.beatRateInvalid (.int 0)) := rfl
  exact ⟨loads_slowDocument, loaded.2 loads_slowDocument, ⟨_, players inside one_le, rfl⟩,
    stopped, refused _ _ rfl stopped⟩

/-- Staccato notes of twice their length. -/
def overlongDocument : Datum := .mapping [("players", .mapping [("staccato_fraction", .int 2)])]

/-- Settings are read of which the players cannot be made. -/
theorem overlongDocument_useless :
    ofDocument overlongDocument = .ok { staccatoFraction := 2 } ∧
      Settings.players { staccatoFraction := 2 } = .error .staccatoOutOfRange := by
  constructor
  · rfl
  · exact players_of_staccato (by decide +kernel)

end MusicAlgebra.Settings
