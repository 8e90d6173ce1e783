import Mathlib.Data.Finset.Card
import Mathlib.Data.Set.List
import MusicAlgebra.Proofs.ChannelAssignment
import MusicAlgebra.Proofs.EventMaps
import MusicAlgebra.Proofs.PlayablePerformance
import MusicAlgebra.Proofs.QueueOrder

/-!
# Preparing what was performed

What built-in players perform names instruments by their canonical names, and its volumes are those
of the MIDI range.  So when a performance is prepared for sending, little can go wrong: a pitch may
be outside the MIDI range, and there may be more melodic instruments than channels.  Otherwise every
audible event is queued as an attack and a later release, all of whose parts can be sent.  The one
thing that comes between is that an event that is refused or left out is told to the user, and may
have numbers with too many digits for that.
-/

namespace MusicAlgebra

open Outcome

def Event.InRange (e : Event) : Prop := 0 ≤ e.pitch ∧ e.pitch ≤ 127

namespace Performance

variable {p : Performance} {patchMap : PatchMap} {events : List Event}

/-- The names of the melodic instruments that a performance uses. -/
def melodicInstruments (p : Performance) : Finset String :=
  (p.events.map (·.instrument)).toFinset.erase Instrument.percussion.name

/-- A performance that one MIDI port can take: its pitches are notes, and its melodic instruments
have a channel each. -/
structure FitsPort (p : Performance) : Prop where
  inRange : ∀ e ∈ p.events, e.InRange
  few : p.melodicInstruments.card ≤ 15

/-- Preparing has to tell the user of an event that cannot be written. -/
inductive TellsUnwritable [Limits] (p : Performance) : Prop where
  /-- It is the first one whose pitch is outside the MIDI range, and is refused. -/
  | refused {e : Event} (first : p.firstOutOfRange? = some e) (long : e.refusal = .unwritable)
  /-- Everything fits, and an event that cannot be heard is left out. -/
  | leftOut {e : Event} (fits : p.FitsPort) (member : e ∈ p.events) (silent : ¬ e.isAudible)
      (long : ¬ e.isWritable)

/-- How preparing a performance without a patch map ends. -/
inductive Prepares [Limits] (p : Performance) : Except Halt (PatchMap × List Scheduled) → Prop where
  | failed {cause : RenderFailure} (written : ¬ p.TellsUnwritable) (unfit : ¬ p.FitsPort) :
      Prepares p (.error (.failed cause))
  | untold (long : p.TellsUnwritable) : Prepares p (.error .unwritable)
  | queued {patchMap : PatchMap} {queue : List Scheduled} (written : ¬ p.TellsUnwritable)
      (fits : p.FitsPort) (proper : patchMap.Proper) : Prepares p (.ok (patchMap, queue))

theorem fitsPort_iff :
    p.FitsPort ↔ ¬ ((∃ e ∈ p.events, ¬ e.InRange) ∨ 15 < p.melodicInstruments.card) := by
  constructor
  · rintro fits (⟨e, member, outside⟩ | many)
    · exact outside (fits.inRange e member)
    · exact many.not_ge fits.few
  · intro fits
    push Not at fits
    exact ⟨fits.1, fits.2⟩

theorem instruments_eq : p.instruments = (p.events.map (·.instrument)).eraseDups := rfl

theorem firstOutOfRange?_eq_none :
    p.firstOutOfRange? = none ↔ ∀ e ∈ p.events, e.InRange := by
  simp [firstOutOfRange?, List.find?_eq_none, Event.InRange]

/-- The instruments behind the names that a performance uses. -/
theorem exists_instruments (canonical : ∀ e ∈ p.events, Instrument.IsCanonical e.instrument) :
    ∃ instruments : List Instrument, instruments.map Instrument.name = p.instruments ∧
      instruments.Nodup ∧ instruments.countP (· ≠ .percussion) = p.melodicInstruments.card := by
  have named : ∀ name ∈ p.instruments, ∃ i : Instrument, i.name = name := by
    intro name member
    obtain ⟨e, eMem, rfl⟩ := List.mem_map.1 (List.mem_eraseDups.1 member)
    exact (canonical e eMem).exists_name
  obtain ⟨instruments, names⟩ : p.instruments ∈ Set.range (List.map Instrument.name) := by
    rw [Set.range_list_map]
    exact named
  have distinct : instruments.Nodup := by
    apply List.Nodup.of_map Instrument.name
    rw [names]
    exact nodup_eraseDups _
  refine ⟨instruments, names, distinct, ?_⟩
  have melodic : p.melodicInstruments =
      ((instruments.filter (· ≠ .percussion)).map Instrument.name).toFinset := by
    ext name
    have used : name ∈ p.events.map (·.instrument) ↔ ∃ i ∈ instruments, i.name = name := by
      rw [← List.mem_eraseDups, ← instruments_eq, ← names, List.mem_map]
    simp only [melodicInstruments, Finset.mem_erase, List.mem_toFinset, used, List.mem_map,
      List.mem_filter, decide_eq_true_eq]
    constructor
    · rintro ⟨melodic, i, member, rfl⟩
      exact ⟨i, ⟨member, fun same => melodic (congrArg _ same)⟩, rfl⟩
    · rintro ⟨i, ⟨member, melodic⟩, rfl⟩
      exact ⟨fun same => melodic (Instrument.name_injective same), i, member, rfl⟩
  rw [melodic, List.toFinset_card_of_nodup, List.length_map, List.countP_eq_length_filter]
  exact (distinct.filter _).map Instrument.name_injective

/-! ## Messages -/

theorem schedule_audible [Limits] {e : Event} {channel : Channel} (audible : e.isAudible)
    (assigned : patchMap.named? e.instrument = some channel) (number : Nat) :
    schedule patchMap number (e :: events) =
      (e.messages channel number ++ ·) <$> schedule patchMap (number + 1) events := by
  rw [schedule, if_pos audible, PatchMap.channel_of_named? assigned]
  cases schedule patchMap (number + 1) events <;> rfl

theorem schedule_silent [Limits] {e : Event} (silent : ¬ e.isAudible) (number : Nat) :
    schedule patchMap number (e :: events) =
      if e.isWritable then schedule patchMap number events else .error .unwritable := by
  rw [schedule, if_neg silent]

/-- Events whose instruments have channels are scheduled, unless one of them is left out that cannot
be written. -/
theorem exists_schedule [Limits] (number : Nat)
    (assigned : ∀ e ∈ events, ∃ channel, patchMap.named? e.instrument = some channel)
    (told : ∀ e ∈ events, ¬ e.isAudible → e.isWritable) :
    ∃ messages, schedule patchMap number events = .ok messages := by
  induction events generalizing number with
  | nil => exact ⟨[], rfl⟩
  | cons e events ih =>
      have others := fun number => ih number
        (fun other member => assigned other (List.mem_cons_of_mem e member))
        (fun other member => told other (List.mem_cons_of_mem e member))
      by_cases audible : e.isAudible
      · obtain ⟨channel, placed⟩ := assigned e List.mem_cons_self
        obtain ⟨messages, scheduled⟩ := others (number + 1)
        exact ⟨_, by rw [schedule_audible audible placed, scheduled, map_ok]⟩
      · rw [schedule_silent audible, if_pos (told e List.mem_cons_self audible)]
        exact others number

theorem schedule_unwritable [Limits] (number : Nat)
    (assigned : ∀ e ∈ events, ∃ channel, patchMap.named? e.instrument = some channel)
    (untold : ∃ e ∈ events, ¬ e.isAudible ∧ ¬ e.isWritable) :
    schedule patchMap number events = .error .unwritable := by
  induction events generalizing number with
  | nil =>
      obtain ⟨e, member, -⟩ := untold
      cases member
  | cons e events ih =>
      have others := fun number => ih number
        (fun other member => assigned other (List.mem_cons_of_mem e member))
      obtain ⟨other, member, silent, long⟩ := untold
      by_cases audible : e.isAudible
      · obtain ⟨channel, placed⟩ := assigned e List.mem_cons_self
        have later : other ∈ events := by
          rcases List.mem_cons.1 member with rfl | later
          · exact absurd audible silent
          · exact later
        rw [schedule_audible audible placed, others (number + 1) ⟨other, later, silent, long⟩,
          map_error]
      · rw [schedule_silent audible]
        split
        · rename_i written
          rcases List.mem_cons.1 member with rfl | later
          · exact absurd written long
          · exact others number ⟨other, later, silent, long⟩
        · rfl

/-! ## Preparing -/

/-- Without a patch map, a performance whose pitches fit is prepared with a map for its instruments,
if there is one. -/
theorem prepare_eq [Limits] (inRange : ∀ e ∈ p.events, e.InRange) :
    p.prepare none = (do
      let patchMap ← PatchMap.forInstruments (p.instruments.map .text)
      let messages ← schedule patchMap 0 p.events
      return (patchMap, messages.mergeSort Scheduled.noLater)) := by
  rw [prepare, firstOutOfRange?_eq_none.2 inRange]

theorem prepare_crowded [Limits] (canonical : ∀ e ∈ p.events, Instrument.IsCanonical e.instrument)
    (inRange : ∀ e ∈ p.events, e.InRange) (many : 15 < p.melodicInstruments.card) :
    p.prepare none = .error (.failed .tooManyInstruments) := by
  obtain ⟨instruments, names, distinct, counted⟩ := exists_instruments canonical
  have refused := PatchMap.forInstruments_names distinct
  rw [if_neg (by omega)] at refused
  rw [prepare_eq inRange, ← names, List.map_map]
  exact congrArg (· >>= _) refused

/-- A map for the instruments of a performance, if there are few enough of them. -/
theorem exists_forInstruments [Limits]
    (canonical : ∀ e ∈ p.events, Instrument.IsCanonical e.instrument)
    (few : p.melodicInstruments.card ≤ 15) :
    ∃ (instruments : List Instrument) (patchMap : PatchMap),
      instruments.map Instrument.name = p.instruments ∧ instruments.Nodup ∧
        PatchMap.forInstruments (p.instruments.map .text) = .ok patchMap ∧ patchMap.Proper ∧
        patchMap.instruments = instruments := by
  obtain ⟨instruments, names, distinct, counted⟩ := exists_instruments canonical
  have made := PatchMap.forInstruments_names distinct
  rw [if_pos (by omega)] at made
  obtain ⟨patchMap, made, proper, holds⟩ := made
  refine ⟨instruments, patchMap, names, distinct, ?_, proper, holds⟩
  rw [← names, List.map_map]
  exact made

/-- A map that holds the instruments of a performance has a channel for each of its events. -/
theorem exists_named? (names : patchMap.instruments.map Instrument.name = p.instruments) {e : Event}
    (member : e ∈ p.events) : ∃ channel, patchMap.named? e.instrument = some channel := by
  have used : e.instrument ∈ patchMap.instruments.map Instrument.name := by
    rw [names, instruments_eq, List.mem_eraseDups]
    exact List.mem_map_of_mem member
  obtain ⟨i, present, name⟩ := List.mem_map.1 used
  rw [← name]
  exact PatchMap.exists_named?_of_mem present

/-- Where the instruments fit, they have channels, and scheduling decides. -/
theorem exists_patchMap [Limits] (canonical : ∀ e ∈ p.events, Instrument.IsCanonical e.instrument)
    (inRange : ∀ e ∈ p.events, e.InRange) (few : p.melodicInstruments.card ≤ 15) :
    ∃ patchMap : PatchMap, patchMap.Proper ∧
      (∀ e ∈ p.events, ∃ channel, patchMap.named? e.instrument = some channel) ∧
      p.prepare none = (do
        let messages ← schedule patchMap 0 p.events
        return (patchMap, messages.mergeSort Scheduled.noLater)) := by
  obtain ⟨instruments, patchMap, names, -, made, proper, rfl⟩ :=
    exists_forInstruments canonical few
  refine ⟨patchMap, proper, fun e member => exists_named? names member, ?_⟩
  rw [prepare_eq inRange, made]
  rfl

theorem prepares [Limits] (canonical : ∀ e ∈ p.events, Instrument.IsCanonical e.instrument) :
    p.Prepares (p.prepare none) := by
  cases first : p.firstOutOfRange? with
  | some e =>
      -- Pitches are looked at before anything else.
      have refused : p.prepare none = .error e.refusal := by rw [prepare, first]
      have unfit : ¬ p.FitsPort := by
        intro fits
        rw [firstOutOfRange?_eq_none.2 fits.inRange] at first
        cases first
      rw [refused]
      have halted : e.refusal.FromPreparing := Halt.fromPreparing_told _
      generalize told : e.refusal = halt at halted ⊢
      cases halted with
      | unwritable => exact .untold (.refused first told)
      | failed cause =>
          refine .failed ?_ unfit
          rintro (⟨same, long⟩ | ⟨fits, -⟩)
          · rw [first] at same
            cases same
            cases told.symm.trans long
          · exact unfit fits
  | none =>
      have inRange := firstOutOfRange?_eq_none.1 first
      by_cases few : p.melodicInstruments.card ≤ 15
      · have fits : p.FitsPort := ⟨inRange, few⟩
        -- Every instrument has a channel, so only an event that is left out can be refused.
        obtain ⟨patchMap, proper, assigned, scheduling⟩ := exists_patchMap canonical inRange few
        rw [scheduling]
        by_cases untold : ∃ e ∈ p.events, ¬ e.isAudible ∧ ¬ e.isWritable
        · rw [schedule_unwritable 0 assigned untold]
          obtain ⟨e, member, silent, long⟩ := untold
          exact .untold (.leftOut fits member silent long)
        · have told : ∀ e ∈ p.events, ¬ e.isAudible → e.isWritable := by
            intro e member silent
            by_contra long
            exact untold ⟨e, member, silent, long⟩
          obtain ⟨messages, scheduled⟩ := exists_schedule 0 assigned told
          rw [scheduled]
          refine .queued ?_ fits proper
          rintro (⟨same, -⟩ | ⟨-, member, silent, long⟩)
          · cases first.symm.trans same
          · exact untold ⟨_, member, silent, long⟩
      · rw [prepare_crowded canonical inRange (not_le.1 few)]
        refine .failed ?_ fun fits => few fits.few
        rintro (⟨same, -⟩ | ⟨fits, -⟩)
        · cases first.symm.trans same
        · exact few fits.few

theorem prepare_untold [Limits] (canonical : ∀ e ∈ p.events, Instrument.IsCanonical e.instrument)
    (long : p.TellsUnwritable) : p.prepare none = .error .unwritable := by
  have ends := prepares canonical
  generalize p.prepare none = outcome at ends ⊢
  cases ends with
  | failed written | queued written => exact absurd long written
  | untold => rfl

end Performance

/-- All that a device asks of an event and its two messages among the others. -/
structure Placed.Fits (placed : List Placed) (x : Placed) : Prop where
  note : 0 ≤ x.event.pitch ∧ x.event.pitch ≤ 127
  velocity : 1 ≤ x.event.volume ∧ x.event.volume ≤ 127
  later : x.attack.time < x.release.time
  drums : x.channel = Instrument.percussionChannel ↔
    x.event.instrument = Instrument.percussion.name
  shared : ∀ y ∈ placed, x.channel = y.channel ↔ x.event.instrument = y.event.instrument

theorem Performance.Queued.fits {patchMap : PatchMap} {p : Performance} {placed : List Placed}
    {queue : List Scheduled} (queued : p.Queued patchMap placed queue) (proper : patchMap.Proper)
    (soft : ∀ e ∈ p.events, e.volume ≤ 127) : ∀ x ∈ placed, x.Fits placed := by
  intro x member
  have found := queued.places.channels x member
  constructor
  · exact queued.pitches x member
  · exact ⟨(queued.audible member).2, soft x.event (queued.places.event_mem member).1⟩
  · exact queued.onset_lt_finish member
  · exact proper.percussion_iff found
  · intro y other
    exact proper.named?_eq_iff found (queued.places.channels y other)

namespace Music

open Performance

/-- What built-in players perform is refused only if a pitch is outside the MIDI range or there are
more than fifteen melodic instruments.  Otherwise every audible event is queued with its two
messages, all of which can be sent, on a channel that it shares with the events of its instrument
alone.  This is so unless the user would have to be told of an event that cannot be written, which
is also the only way in which preparing comes to another end. -/
theorem perform_prepared [Limits] {players : Registry} {c : Context} (builtIn : players.BuiltIn)
    {m : Music}
    (moving : 0 < c.tempo) (canonical : Instrument.IsCanonical c.instrument) {p : Performance}
    (performed : m.perform players c = .ok p) :
    (p.prepare none = .error .unwritable ↔ p.TellsUnwritable) ∧
      (¬ p.TellsUnwritable →
        ((∃ cause, p.prepare none = .error (.failed cause)) ↔
          (∃ e ∈ p.events, ¬ e.InRange) ∨ 15 < p.melodicInstruments.card) ∧
        (¬ ((∃ e ∈ p.events, ¬ e.InRange) ∨ 15 < p.melodicInstruments.card) →
          ∃ patchMap placed queue, p.prepare none = .ok (patchMap, queue) ∧
            p.Queued patchMap placed queue ∧ (∀ x ∈ placed, x.Fits placed) ∧
            ∀ s ∈ queue, s.message?.isSome = true)) := by
  have playable := (perform_playable builtIn m moving canonical).1 p performed
  have soft : ∀ e ∈ p.events, e.volume ≤ 127 := fun e member => (playable e member).loud.2
  have ends := prepares fun e member => (playable e member).canonical
  cases prepared : p.prepare none with
  | error halt =>
      rw [prepared] at ends
      cases ends with
      | failed written unfit =>
          refine ⟨iff_of_false nofun written, fun _ => ⟨iff_of_true ⟨_, rfl⟩ ?_, ?_⟩⟩
          · exact not_not.1 fun fits => unfit (fitsPort_iff.2 fits)
          · exact fun fits => absurd (fitsPort_iff.2 fits) unfit
      | untold long => exact ⟨iff_of_true rfl long, fun written => absurd long written⟩
  | ok result =>
      obtain ⟨patchMap, queue⟩ := result
      rw [prepared] at ends
      cases ends with
      | queued written fits proper =>
          obtain ⟨placed, queued⟩ := exists_queued_of_prepare prepared
          refine ⟨iff_of_false nofun written, fun _ => ⟨iff_of_false ?_ ?_, fun _ => ?_⟩⟩
          · rintro ⟨cause, failed⟩
            cases failed
          · exact fitsPort_iff.1 fits
          · exact ⟨patchMap, placed, queue, rfl, queued, queued.fits proper soft,
              queued.isSome_message? soft⟩

/-- Three quarters at once, by a piano, a violin and a drum. -/
def trio : Music :=
  parallel (quarter .c)
    (parallel (modified (.instrument (.text "Violin")) (quarter .e))
      (modified (.instrument (.text "percussion")) (quarter .g)))

def playedTrio : Performance :=
  ⟨[⟨0, 1 / 4, 60, 100, "acoustic_grand_piano"⟩, ⟨0, 1 / 4, 64, 100, "violin"⟩,
    ⟨0, 1 / 4, 67, 100, "percussion"⟩], 1 / 4⟩

open Usual

theorem trio_prepared :
    ringingPlayers.BuiltIn ∧ 0 < ({} : Context).tempo ∧
      Instrument.IsCanonical ({} : Context).instrument ∧
      trio.perform ringingPlayers {} = .ok playedTrio ∧ ¬ playedTrio.TellsUnwritable ∧
      ¬ ((∃ e ∈ playedTrio.events, ¬ e.InRange) ∨ 15 < playedTrio.melodicInstruments.card) ∧
      ∃ patchMap placed queue, playedTrio.prepare none = .ok (patchMap, queue) ∧
        playedTrio.Queued patchMap placed queue ∧ (∀ x ∈ placed, x.Fits placed) ∧
        ∀ s ∈ queue, s.message?.isSome = true := by
  have moving : 0 < ({} : Context).tempo := by decide +kernel
  have canonical : Instrument.IsCanonical ({} : Context).instrument := by decide +kernel
  have piano : (quarter .c).perform ringingPlayers {} =
      .ok ⟨[⟨0, 1 / 4, 60, 100, "acoustic_grand_piano"⟩], 1 / 4⟩ := by
    apply eq_ok_of_toOption
    decide +kernel
  have violin : (modified (.instrument (.text "Violin")) (quarter .e)).perform ringingPlayers {} =
      .ok ⟨[⟨0, 1 / 4, 64, 100, "violin"⟩], 1 / 4⟩ := by
    apply eq_ok_of_toOption
    decide +kernel
  have drum : (modified (.instrument (.text "percussion")) (quarter .g)).perform
      ringingPlayers {} = .ok ⟨[⟨0, 1 / 4, 67, 100, "percussion"⟩], 1 / 4⟩ := by
    apply eq_ok_of_toOption
    decide +kernel
  have lasted : trio.duration.val / ({} : Context).tempo = 1 / 4 := by decide +kernel
  have performed : trio.perform ringingPlayers {} = .ok playedTrio := by
    rw [trio] at lasted ⊢
    rw [perform_parallel_pair _ _ _ moving, perform_parallel_pair _ _ _ moving, piano, violin, drum,
      lasted]
    simp only [map_ok, ok_bind, map_pure, pure_bind, List.cons_merge_cons, Event.noLater, le_refl,
      decide_true, if_true, List.nil_merge]
    rfl
  have inRange : playedTrio.firstOutOfRange? = none := by decide +kernel
  have fits : playedTrio.FitsPort := by
    constructor
    · exact firstOutOfRange?_eq_none.1 inRange
    · decide +kernel
  have written : ¬ playedTrio.TellsUnwritable := by
    rintro (⟨refused, -⟩ | ⟨-, member, silent, -⟩)
    · cases inRange.symm.trans refused
    · have audible : ∀ e ∈ playedTrio.events, e.isAudible = true := by decide +kernel
      exact silent (audible _ member)
  have unexceptional := fitsPort_iff.1 fits
  have prepared := perform_prepared ringingPlayers_builtIn moving canonical performed
  exact ⟨ringingPlayers_builtIn, moving, canonical, performed, written, unexceptional,
    (prepared.2 written).2 unexceptional⟩

theorem silent_inRange : 0 < 128 := by decide

/-- A silent note that is shorter than can be written, within a rest. -/
def silentGrace : Music :=
  parallel
    (note ⟨⟨⟨.c, .natural⟩, 4, natural_inRange .c⟩, .nearest (1 / 10 ^ 4300), ⟨0, silent_inRange⟩⟩)
    (rest (.nearest 1))

def playedSilence : Performance :=
  ⟨[⟨0, 1 / 10 ^ 4300, 60, 0, "acoustic_grand_piano"⟩], 1⟩

theorem fitsPort_playedSilence : playedSilence.FitsPort := by
  constructor
  · exact firstOutOfRange?_eq_none.1 (by decide +kernel)
  · decide +kernel

theorem prepare_playedSilence : playedSilence.prepare none = .error .unwritable := by
  apply prepare_untold
  · decide +kernel
  · exact .leftOut fitsPort_playedSilence List.mem_cons_self (by decide +kernel) (by decide +kernel)

/-- Nothing is wrong with the pitch and the instrument of the note, but the user has to be told that
it is left out. -/
theorem unwritable_silence :
    (Operand.music silentGrace).perform ringingPlayers {} = .ok playedSilence ∧
      ¬ ((∃ e ∈ playedSilence.events, ¬ e.InRange) ∨ 15 < playedSilence.melodicInstruments.card) ∧
      playedSilence.prepare none = .error .unwritable := by
  have moving : 0 < ({} : Context).tempo := by decide +kernel
  have lasted : silentGrace.duration.val / ({} : Context).tempo = 1 := by decide +kernel
  have grace : (note ⟨⟨⟨.c, .natural⟩, 4, natural_inRange .c⟩, .nearest (1 / 10 ^ 4300),
      ⟨0, silent_inRange⟩⟩).perform ringingPlayers {} =
        .ok ⟨playedSilence.events, 1 / 10 ^ 4300⟩ := by
    apply eq_ok_of_toOption
    decide +kernel
  have breath : (rest (.nearest 1)).perform ringingPlayers {} = .ok ⟨[], 1⟩ := by
    apply eq_ok_of_toOption
    decide +kernel
  have performed : silentGrace.perform ringingPlayers {} = .ok playedSilence := by
    rw [silentGrace] at lasted ⊢
    rw [perform_parallel_pair _ _ _ moving, grace, breath, lasted]
    simp only [map_ok, ok_bind, List.merge_right]
    rfl
  refine ⟨?_, fitsPort_iff.1 fitsPort_playedSilence, prepare_playedSilence⟩
  have written : Number.isWritable playedSilence.duration = true := by decide +kernel
  rw [Operand.perform, performed, ok_bind, granted, if_pos written]

end Music

end MusicAlgebra
