import MusicAlgebra.Proofs.PreparedPerformance
import MusicAlgebra.Proofs.RendererHistory
import MusicAlgebra.Proofs.WholePlayback

/-!
# Silent events

An event without length or volume is passed over when the messages of a performance are queued, and
on a given patch map nothing else is left of it.  But a map that is made for a performance is made
for all of its events: the instrument of a silent event has a channel too, is selected there, and
counts among those that fit a port.  So silent events can be taken out of a performance without
being missed as long as the melodic programs come in the same order without them, and in general if
the map is kept that was made with them.
-/

namespace MusicAlgebra

open Happening Outcome

namespace Instrument

/-- The program that is selected for an instrument; the drum kit needs none. -/
def program? : Instrument → Option DataByte
  | melodic program => some program
  | percussion => none

@[simp] theorem program?_melodic (program : DataByte) :
    (melodic program).program? = some program := rfl

@[simp] theorem program?_percussion : percussion.program? = none := rfl

theorem isSome_program? (i : Instrument) : i.program?.isSome = decide (i ≠ .percussion) := by
  cases i <;> rfl

end Instrument

/-! ## Program changes of a map -/

namespace PatchMap

variable {m other : PatchMap} {free : List Channel} {instruments : List Instrument}
variable {channel : Channel}

theorem programChange_mem {program : DataByte} :
    .programChange channel program ∈ m.programChanges ↔
      (.melodic program, channel) ∈ m.assignments := by
  rw [programChanges, List.mem_filterMap]
  constructor
  · rintro ⟨⟨i, placed⟩, member, selected⟩
    cases i with
    | melodic program =>
        cases selected
        exact member
    | percussion => cases selected
  · intro member
    exact ⟨_, member, rfl⟩

@[simp] theorem programChanges_add_percussion :
    (m.add .percussion channel).programChanges = m.programChanges := by
  simp [add, programChanges]

@[simp] theorem programChanges_add_melodic (program : DataByte) :
    (m.add (.melodic program) channel).programChanges =
      m.programChanges ++ [.programChange channel program] := by
  simp [add, programChanges]

/-- Programs are selected on the free channels, in the order of the instruments. -/
theorem programChanges_of_assignAll [Limits] {full : PatchMap} (proper : m.Proper)
    (spare : m.Spare free)
    (distinct : instruments.Nodup) (new : ∀ i ∈ instruments, i ∉ m.instruments)
    (assigned : m.assignAll free (instruments.map fun i => .text i.name) = .ok full) :
    full.programChanges = m.programChanges ++
      List.zipWith .programChange free (instruments.filterMap Instrument.program?) := by
  induction instruments generalizing m free with
  | nil =>
      cases assigned
      rw [List.filterMap_nil, List.zipWith_nil_right, List.append_nil]
  | cons i others ih =>
      obtain ⟨apart, othersDistinct⟩ := List.nodup_cons.1 distinct
      have absent := new i List.mem_cons_self
      have stillNew := new_after_add apart new
      rw [List.map_cons] at assigned
      cases i with
      | percussion =>
          have added := proper.add absent (proper.percussionChannel_unused absent)
            (iff_of_true rfl rfl)
          have spare := spare.add (i := .percussion) fun member => spare.melodic _ member rfl
          rw [assignAll_percussion proper absent] at assigned
          rw [ih added spare othersDistinct (stillNew _) assigned, programChanges_add_percussion,
            List.filterMap_cons_none Instrument.program?_percussion]
      | melodic program =>
          have melodic : Instrument.melodic program ≠ .percussion := Instrument.noConfusion
          rw [assignAll_melodic absent melodic spare] at assigned
          cases free with
          | nil => cases assigned
          | cons channel free =>
              obtain ⟨unused, kind, spare⟩ := spare.tail (i := .melodic program)
              have added := proper.add absent unused (iff_of_false melodic kind)
              rw [ih added spare othersDistinct (stillNew channel) assigned,
                programChanges_add_melodic,
                List.filterMap_cons_some (Instrument.program?_melodic program),
                List.zipWith_cons_cons, List.append_assoc, List.singleton_append]

/-- Proper maps that select the same programs agree about every instrument that both hold. -/
theorem Proper.named?_eq (proper : m.Proper) (otherProper : other.Proper)
    (same : m.programChanges = other.programChanges) {name : String}
    (held : ∃ channel, m.named? name = some channel)
    (otherHeld : ∃ channel, other.named? name = some channel) :
    m.named? name = other.named? name := by
  obtain ⟨channel, found⟩ := held
  obtain ⟨otherChannel, otherFound⟩ := otherHeld
  rw [found, otherFound]
  obtain ⟨i, rfl, member⟩ := exists_of_named? found
  obtain ⟨j, named, otherMember⟩ := exists_of_named? otherFound
  cases Instrument.name_injective named
  cases i with
  | melodic program =>
      have selected := programChange_mem.1 (same ▸ programChange_mem.2 member)
      have entries := List.inj_on_of_nodup_map otherProper.instruments selected otherMember rfl
      rw [(Prod.mk.inj entries).2]
  | percussion =>
      rw [(proper.percussion_iff found).2 rfl, (otherProper.percussion_iff otherFound).2 rfl]

end PatchMap

/-! ## Taking silent events out -/

namespace Performance

variable {p : Performance} {keep : Event → Bool} {patchMap other : PatchMap}

/-- The performance with only those of its events that are to be kept. -/
def keeping (keep : Event → Bool) (p : Performance) : Performance :=
  { p with events := p.events.filter keep }

/-- The melodic programs of a performance, in the order of their first events. -/
def programs (p : Performance) : List DataByte :=
  (p.instruments.filterMap Instrument.ofName?).filterMap Instrument.program?

/-- Events that are taken out of a performance: none that can be heard, and none that cannot be
written. -/
structure Dispensable [Limits] (keep : Event → Bool) (p : Performance) : Prop where
  silent : ∀ e ∈ p.events, e.isAudible = true → keep e = true
  told : ∀ e ∈ p.events, keep e = false → e.isWritable = true

theorem mem_keeping {e : Event} : e ∈ (p.keeping keep).events ↔ e ∈ p.events ∧ keep e = true :=
  List.mem_filter

/-- On a given map, nothing is left of a silent event. -/
theorem schedule_filter [Limits] (patchMap : PatchMap) (number : Nat) {events : List Event}
    (silent : ∀ e ∈ events, e.isAudible = true → keep e = true)
    (told : ∀ e ∈ events, keep e = false → e.isWritable = true) :
    schedule patchMap number (events.filter keep) = schedule patchMap number events := by
  induction events generalizing number with
  | nil => rfl
  | cons e events ih =>
      have others := fun number => ih number
        (fun other member => silent other (List.mem_cons_of_mem e member))
        (fun other member => told other (List.mem_cons_of_mem e member))
      cases kept : keep e with
      | true => rw [List.filter_cons_of_pos kept, schedule, schedule, others, others]
      | false =>
          have unheard : ¬ e.isAudible = true := by
            intro audible
            rw [silent e List.mem_cons_self audible] at kept
            cases kept
          rw [List.filter_cons_of_neg (by simp [kept]), others, schedule_silent unheard,
            if_pos (told e List.mem_cons_self kept)]

/-- Messages depend on a map through the channels of audible events alone. -/
theorem schedule_congr [Limits] (number : Nat) {events : List Event}
    (same : ∀ e ∈ events,
      patchMap.channel (.text e.instrument) = other.channel (.text e.instrument)) :
    schedule patchMap number events = schedule other number events := by
  induction events generalizing number with
  | nil => rfl
  | cons e events ih =>
      have others := fun number => ih number
        fun next member => same next (List.mem_cons_of_mem e member)
      rw [schedule, schedule, same e List.mem_cons_self, others, others]

theorem prepare_given [Limits] (inRange : ∀ e ∈ p.events, e.InRange) (patchMap : PatchMap) :
    p.prepare (some patchMap) = (do
      let messages ← schedule patchMap 0 p.events
      return (patchMap, messages.mergeSort Scheduled.noLater)) := by
  rw [prepare, firstOutOfRange?_eq_none.2 inRange]
  rfl

theorem prepare_made [Limits]
    (made : PatchMap.forInstruments (p.instruments.map .text) = .ok patchMap) :
    p.prepare none = p.prepare (some patchMap) := by
  rw [prepare, prepare, made]

theorem prepare_given_keeping [Limits] (inRange : ∀ e ∈ p.events, e.InRange)
    (dispensable : p.Dispensable keep) (patchMap : PatchMap) :
    (p.keeping keep).prepare (some patchMap) = p.prepare (some patchMap) := by
  have kept : ∀ e ∈ (p.keeping keep).events, e.InRange :=
    fun e member => inRange e (mem_keeping.1 member).1
  have scheduled : schedule patchMap 0 (p.keeping keep).events = schedule patchMap 0 p.events :=
    schedule_filter patchMap 0 dispensable.silent dispensable.told
  rw [prepare_given inRange, prepare_given kept, scheduled]

theorem programs_eq {instruments : List Instrument}
    (names : instruments.map Instrument.name = p.instruments) :
    p.programs = instruments.filterMap Instrument.program? := by
  have found : (instruments.map Instrument.name).filterMap Instrument.ofName? = instruments := by
    rw [List.filterMap_map]
    simp only [Function.comp_def, Instrument.ofName?_name, List.filterMap_some]
  rw [programs, ← names, found]

theorem length_programs (canonical : ∀ e ∈ p.events, Instrument.IsCanonical e.instrument) :
    p.programs.length = p.melodicInstruments.card := by
  obtain ⟨instruments, names, -, counted⟩ := exists_instruments canonical
  rw [programs_eq names, List.length_filterMap_eq_countP, ← counted]
  simp only [Instrument.isSome_program?]

/-- A map made for a performance selects its programs on the melodic channels in order. -/
theorem exists_map [Limits] (canonical : ∀ e ∈ p.events, Instrument.IsCanonical e.instrument)
    (few : p.programs.length ≤ 15) :
    ∃ patchMap : PatchMap, patchMap.Proper ∧
      (∀ e ∈ p.events, ∃ channel, patchMap.named? e.instrument = some channel) ∧
      patchMap.programChanges =
        List.zipWith .programChange PatchMap.melodicChannels p.programs ∧
      p.prepare none = p.prepare (some patchMap) := by
  rw [length_programs canonical] at few
  obtain ⟨instruments, patchMap, names, distinct, made, proper, rfl⟩ :=
    exists_forInstruments canonical few
  refine ⟨patchMap, proper, fun e member => exists_named? names member, ?_, prepare_made made⟩
  have assigned : PatchMap.empty.assignAll PatchMap.melodicChannels
      (patchMap.instruments.map fun i => .text i.name) = .ok patchMap := by
    rw [← made, ← names, List.map_map]
    rfl
  have changes := PatchMap.programChanges_of_assignAll PatchMap.proper_empty
    PatchMap.spare_melodicChannels distinct (fun _ _ => List.not_mem_nil) assigned
  rw [changes, programs_eq names]
  rfl

/-- Maps made for performances of the same programs give every event the same channel. -/
theorem channel_eq [Limits] {q : Performance} (proper : patchMap.Proper)
    (otherProper : other.Proper)
    (same : patchMap.programChanges = other.programChanges)
    (held : ∀ e ∈ p.events, ∃ channel, patchMap.named? e.instrument = some channel)
    (otherHeld : ∀ e ∈ q.events, ∃ channel, other.named? e.instrument = some channel)
    (shared : ∀ e ∈ q.events, e ∈ p.events) :
    ∀ e ∈ q.events, patchMap.channel (.text e.instrument) = other.channel (.text e.instrument) := by
  intro e member
  have agreed := proper.named?_eq otherProper same (held e (shared e member)) (otherHeld e member)
  obtain ⟨channel, found⟩ := otherHeld e member
  rw [PatchMap.channel_of_named? found, PatchMap.channel_of_named? (agreed.trans found)]

/-- Without a patch map, silent events are not missed if the programs come in the same order. -/
theorem prepare_keeping [Limits] (inRange : ∀ e ∈ p.events, e.InRange)
    (canonical : ∀ e ∈ p.events, Instrument.IsCanonical e.instrument)
    (dispensable : p.Dispensable keep) (same : p.programs = (p.keeping keep).programs) :
    p.prepare none = (p.keeping keep).prepare none ∨
      ∃ patchMap other queue, p.prepare none = .ok (patchMap, queue) ∧
        (p.keeping keep).prepare none = .ok (other, queue) ∧
        patchMap.programChanges = other.programChanges := by
  have keptInRange : ∀ e ∈ (p.keeping keep).events, e.InRange :=
    fun e member => inRange e (mem_keeping.1 member).1
  have keptCanonical : ∀ e ∈ (p.keeping keep).events, Instrument.IsCanonical e.instrument :=
    fun e member => canonical e (mem_keeping.1 member).1
  by_cases few : p.programs.length ≤ 15
  · obtain ⟨patchMap, proper, held, changes, prepared⟩ := exists_map canonical few
    obtain ⟨other, otherProper, otherHeld, otherChanges, otherPrepared⟩ :=
      exists_map keptCanonical (same ▸ few)
    have agreed : patchMap.programChanges = other.programChanges := by
      rw [changes, otherChanges, same]
    have channels := channel_eq proper otherProper agreed held otherHeld
      fun e member => (mem_keeping.1 member).1
    rw [prepared, otherPrepared, ← prepare_given_keeping inRange dispensable patchMap,
      prepare_given keptInRange, prepare_given keptInRange, ← schedule_congr 0 channels]
    cases schedule patchMap 0 (p.keeping keep).events with
    | error halt => exact .inl rfl
    | ok messages => exact .inr ⟨patchMap, other, _, rfl, rfl, agreed⟩
  · left
    have many := not_le.1 few
    have keptMany := same ▸ many
    rw [length_programs canonical] at many
    rw [length_programs keptCanonical] at keptMany
    rw [prepare_crowded canonical inRange many, prepare_crowded keptCanonical keptInRange keptMany]

end Performance

/-! ## Rendering -/

/-- A renderer that is given no patch map. -/
def improviser : Renderer := { beatRate := .standard }

namespace Stage

variable {σ : Type} {r : Renderer} {p q : Performance} {keep : Event → Bool}

/-- A stage that is told nothing. -/
def unlogged (stage : Stage (StateM σ)) : Stage (StateM σ) :=
  { stage with report := fun _ => pure () }

/-- Rendering depends on a performance through what is prepared for it alone. -/
theorem render_congr [Limits] (stage : Stage (StateM σ))
    (same : p.prepare r.patchMap = q.prepare r.patchMap) : stage.render r p = stage.render r q := by
  unfold render
  rw [same]

/-- Of a map, only the programs that it selects are sent. -/
theorem render_unlogged_congr [Limits] (stage : Stage (StateM σ)) {patchMap other : PatchMap}
    {queue : List Scheduled} (prepared : p.prepare r.patchMap = .ok (patchMap, queue))
    (otherPrepared : q.prepare r.patchMap = .ok (other, queue))
    (same : patchMap.programChanges = other.programChanges) :
    stage.unlogged.render r p = stage.unlogged.render r q := by
  unfold render
  cases r.accept with
  | error cause => rfl
  | ok _ =>
      simp only [prepared, otherPrepared, renderQueue, streamFrom, same]
      rfl

/-- Silent events can be taken out of a performance.  On a given patch map nothing else changes; if
the map is made for the performance, the same messages are sent as long as the melodic programs come
in the same order without them.  In general the performance without them is prepared as if the map
had been made with them, and programs that do not fit a port are refused, silent ones among them. -/
theorem render_without_silence [Limits] (stage : Stage (StateM σ)) (r : Renderer)
    (inRange : ∀ e ∈ p.events, e.InRange)
    (canonical : ∀ e ∈ p.events, Instrument.IsCanonical e.instrument)
    (dispensable : p.Dispensable keep) :
    (∀ patchMap, r.patchMap = some patchMap →
        stage.render r p = stage.render r (p.keeping keep)) ∧
      (r.patchMap = none → p.programs = (p.keeping keep).programs →
        stage.unlogged.render r p = stage.unlogged.render r (p.keeping keep)) ∧
      if p.programs.length ≤ 15 then
        ∃ patchMap : PatchMap, patchMap.programChanges =
            List.zipWith .programChange PatchMap.melodicChannels p.programs ∧
          p.prepare none = (p.keeping keep).prepare (some patchMap)
      else p.prepare none = .error (.failed .tooManyInstruments) := by
  refine ⟨?_, ?_, ?_⟩
  · intro patchMap given
    apply stage.render_congr
    rw [given, Performance.prepare_given_keeping inRange dispensable]
  · intro absent same
    rcases Performance.prepare_keeping inRange canonical dispensable same with
      alike | ⟨patchMap, other, queue, prepared, otherPrepared, agreed⟩
    · apply stage.unlogged.render_congr
      rw [absent, alike]
    · rw [← absent] at prepared otherPrepared
      exact stage.render_unlogged_congr prepared otherPrepared agreed
  · split
    · rename_i few
      obtain ⟨patchMap, -, -, changes, prepared⟩ := Performance.exists_map canonical few
      exact ⟨patchMap, changes,
        prepared.trans (Performance.prepare_given_keeping inRange dispensable patchMap).symm⟩
    · rename_i many
      rw [Performance.length_programs canonical] at many
      exact Performance.prepare_crowded canonical inRange (not_le.1 many)

/-- A violin and a piano fade out, the violin in length and the piano in volume. -/
def fadingDuet : Performance :=
  ⟨[⟨0, 1, 60, 100, "violin"⟩, ⟨1, 0, 62, 100, "violin"⟩,
    ⟨0, 1, 48, 80, "acoustic_grand_piano"⟩, ⟨1, 1, 48, 0, "acoustic_grand_piano"⟩], 2⟩

open Usual

/-- Of the duet, the last notes are not missed, since both instruments are heard before. -/
theorem fadingDuet_without_silence :
    let heard := fadingDuet.keeping Event.isAudible
    (∀ e ∈ fadingDuet.events, e.InRange) ∧
      (∀ e ∈ fadingDuet.events, Instrument.IsCanonical e.instrument) ∧
      fadingDuet.Dispensable Event.isAudible ∧ heard.events.length = 2 ∧
      fadingDuet.programs = heard.programs ∧
      obliging.unlogged.render improviser fadingDuet =
        obliging.unlogged.render improviser heard ∧
      ∃ patchMap : PatchMap, patchMap.programChanges =
          [.programChange 0 40, .programChange 1 0] ∧
        fadingDuet.prepare none = heard.prepare (some patchMap) := by
  intro heard
  have inRange : ∀ e ∈ fadingDuet.events, e.InRange :=
    Performance.firstOutOfRange?_eq_none.1 rfl
  have canonical : ∀ e ∈ fadingDuet.events, Instrument.IsCanonical e.instrument := by
    decide +kernel
  have dispensable : fadingDuet.Dispensable Event.isAudible :=
    ⟨fun _ _ audible => audible, by decide +kernel⟩
  have programs : fadingDuet.programs = [40, 0] := by decide +kernel
  have same : fadingDuet.programs = heard.programs := by decide +kernel
  obtain ⟨-, unmissed, prepared⟩ :=
    render_without_silence obliging improviser inRange canonical dispensable
  rw [programs, if_pos (by decide)] at prepared
  exact ⟨inRange, canonical, dispensable, by decide +kernel, same, unmissed rfl same, prepared⟩

end Stage

/-! ## A violin that is selected for nothing -/

/-- A violin note without volume, and a piano note with it. -/
def mutedViolin : Performance :=
  ⟨[⟨0, 1, 60, 0, "violin"⟩, ⟨0, 1, 60, 100, "acoustic_grand_piano"⟩], 1⟩

open Usual

theorem prepare_mutedViolin :
    mutedViolin.prepare improviser.patchMap = .ok (⟨[(.melodic 40, 0), (.melodic 0, 1)]⟩,
      [⟨0, .attack, 0, 1, 60, 100⟩, ⟨1, .release, 0, 1, 60, 0⟩]) := by
  have made : PatchMap.forInstruments (mutedViolin.instruments.map .text) =
      .ok ⟨[(.melodic 40, 0), (.melodic 0, 1)]⟩ := by
    apply eq_ok_of_toOption
    decide +kernel
  have scheduled : Performance.schedule ⟨[(.melodic 40, 0), (.melodic 0, 1)]⟩ 0
      mutedViolin.events = .ok [⟨0, .attack, 0, 1, 60, 100⟩, ⟨1, .release, 0, 1, 60, 0⟩] := by
    apply eq_ok_of_toOption
    decide +kernel
  refine (Performance.prepare_made made).trans (Performance.prepare_some rfl scheduled ?_ ?_)
  · decide +kernel
  · decide +kernel

theorem prepare_mutedViolin_keeping :
    (mutedViolin.keeping Event.isAudible).prepare improviser.patchMap =
      .ok (pianoAlone, [⟨0, .attack, 0, 0, 60, 100⟩, ⟨1, .release, 0, 0, 60, 0⟩]) := by
  have made : PatchMap.forInstruments
      ((mutedViolin.keeping Event.isAudible).instruments.map .text) = .ok pianoAlone := by
    apply eq_ok_of_toOption
    decide +kernel
  have scheduled : Performance.schedule pianoAlone 0 (mutedViolin.keeping Event.isAudible).events =
      .ok [⟨0, .attack, 0, 0, 60, 100⟩, ⟨1, .release, 0, 0, 60, 0⟩] := by
    apply eq_ok_of_toOption
    decide +kernel
  refine (Performance.prepare_made made).trans (Performance.prepare_some rfl scheduled ?_ ?_)
  · decide +kernel
  · decide +kernel

/-- The violin is selected although it cannot be heard, and it takes the first channel from the
piano. -/
theorem Rehearsal.muted_violin_selected :
    (∀ e ∈ mutedViolin.events, e.InRange) ∧
      (∀ e ∈ mutedViolin.events, 0 ≤ e.volume ∧ e.volume ≤ 127) ∧
      (∀ e ∈ mutedViolin.events, Instrument.IsCanonical e.instrument) ∧
      delivered ((world.recorded.render improviser mutedViolin).run (start {}, [])).2.2 =
        [.programChange 0 40, .programChange 1 0, .noteOn 1 60 100, .noteOff 1 60 0] ∧
      delivered ((world.recorded.render improviser
          (mutedViolin.keeping Event.isAudible)).run (start {}, [])).2.2 =
        [.programChange 0 0, .noteOn 0 60 100, .noteOff 0 60 0] := by
  refine ⟨Performance.firstOutOfRange?_eq_none.1 rfl, by decide +kernel, by decide +kernel, ?_, ?_⟩
  · rw [Stage.render_eq rfl prepare_mutedViolin (by decide +kernel)]
    decide +kernel
  · rw [Stage.render_eq rfl prepare_mutedViolin_keeping (by decide +kernel)]
    decide +kernel

end MusicAlgebra
