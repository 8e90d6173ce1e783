import Mathlib.Data.List.Nodup
import MusicAlgebra.Midi.PatchMap
import MusicAlgebra.Proofs.PlayableEvents

/-!
# Assigning channels

A patch map that is made for the instruments of a performance takes their canonical names one after
the other.  Every melodic instrument takes the next free channel and the drum kit its own, so the
map stays proper: no two instruments share a channel, and the drum kit alone has channel 9.  The
only thing that can go wrong is that the free channels run out.
-/

namespace MusicAlgebra

open Outcome

theorem Keyed.put_of_absent {κ ν : Type} [DecidableEq κ] {key : κ} {entries : List (κ × ν)}
    (absent : key ∉ entries.map Prod.fst) (value : ν) :
    put key value entries = entries ++ [(key, value)] := by
  induction entries with
  | nil => rfl
  | cons entry rest ih =>
      obtain ⟨other, old⟩ := entry
      have different : other ≠ key := by
        rintro rfl
        exact absent List.mem_cons_self
      rw [put, if_neg different, List.cons_append]
      rw [ih fun member => absent (List.mem_cons_of_mem _ member)]

theorem Keyed.exists_find?_of_mem {κ ν : Type} [DecidableEq κ] {key : κ} {entries : List (κ × ν)}
    (present : key ∈ entries.map Prod.fst) : ∃ value, find? key entries = some value := by
  induction entries with
  | nil => cases present
  | cons entry rest ih =>
      obtain ⟨other, value⟩ := entry
      rw [find?]
      split
      · exact ⟨value, rfl⟩
      · rename_i different
        rcases List.mem_cons.1 present with same | present
        · exact absurd same.symm different
        · exact ih present

/-! ## Canonical names -/

namespace Instrument

theorem ofName?_name (i : Instrument) : ofName? i.name = some i := by
  cases i with
  | melodic program =>
      have member : (melodic program).name ∈ melodicNames := List.get_mem melodicNames _
      have melodic : (melodic program).name ≠ "percussion" := by
        have absent : "percussion" ∉ melodicNames := by decide +kernel
        exact fun same => absent (same ▸ member)
      have found : melodicNames.findFinIdx? (· == (Instrument.melodic program).name) =
          some (program.cast melodicNames_length.symm) := by
        apply List.findFinIdx?_eq_some_iff.2
        refine ⟨beq_self_eq_true _, fun earlier before same => ?_⟩
        have equal := melodicNames_nodup.getElem_inj_iff.1 (eq_of_beq same)
        exact Nat.ne_of_lt before equal
      rw [ofName?, if_neg melodic, found]
      rfl
  | percussion => rfl

theorem name_injective : Function.Injective name := by
  intro i j same
  have found := ofName?_name i
  rw [same, ofName?_name j] at found
  exact (Option.some.inj found).symm

/-- The characters of canonical names: small letters, digits and the underscore. -/
def isPlain (c : Char) : Bool :=
  c.toNat = 95 || 97 ≤ c.toNat && c.toNat ≤ 122 || 48 ≤ c.toNat && c.toNat ≤ 57

theorem isPlain_iff {c : Char} :
    isPlain c = true ↔
      c.toNat = 95 ∨ 97 ≤ c.toNat ∧ c.toNat ≤ 122 ∨ 48 ≤ c.toNat ∧ c.toNat ≤ 57 := by
  simp [isPlain, or_assoc]

theorem isBlank_of_isPlain {c : Char} (plain : isPlain c = true) : Text.isBlank c = false := by
  rw [isPlain_iff] at plain
  simp only [Text.isBlank, Bool.or_eq_false_iff, Bool.and_eq_false_iff, decide_eq_false_iff_not,
    beq_eq_false_iff_ne]
  omega

/-- Plain characters are left alone. -/
theorem spelt_of_isPlain {c : Char} (plain : isPlain c = true) :
    (if c = ' ' ∨ c = '-' then '_' else smallLetter c) = c := by
  rw [isPlain_iff] at plain
  have unspaced : ¬ (c = ' ' ∨ c = '-') := by
    rintro (rfl | rfl) <;> simp at plain
  have latin : c ≠ '\u212a' := by
    rintro rfl
    simp at plain
  have small : ¬ (c.val ≥ 'A'.val ∧ c.val ≤ 'Z'.val) := by
    rintro ⟨above, below⟩
    have lower : 65 ≤ c.toNat := UInt32.le_iff_toNat_le.1 above
    have upper : c.toNat ≤ 90 := UInt32.le_iff_toNat_le.1 below
    omega
  rw [if_neg unspaced, smallLetter, if_neg latin]
  exact dif_neg small

/-- A spelling made of plain characters.  A literal shows its characters at once, whereas reading
them out of the finished text takes long. -/
def Plain (spelling : String) : Prop :=
  ∃ characters, spelling = String.ofList characters ∧ characters.all isPlain = true

theorem plain_name (i : Instrument) : Plain i.name := by
  cases i with
  | melodic program =>
      have plain : ∀ name ∈ melodicNames, Plain name := by
        simp only [melodicNames, List.forall_mem_cons]
        and_intros
        all_goals first | exact ⟨_, rfl, by decide +kernel⟩ | exact nofun
      exact plain _ (List.get_mem melodicNames _)
  | percussion => exact ⟨_, rfl, by decide +kernel⟩

theorem normalSpelling_of_plain {spelling : String} (plain : Plain spelling) :
    normalSpelling spelling = spelling := by
  obtain ⟨characters, rfl, plain⟩ := plain
  rw [List.all_eq_true] at plain
  have trimmed : Text.trim characters = characters := by
    apply Text.trim_eq_self
    · exact fun c first => isBlank_of_isPlain (plain c (List.mem_of_mem_head? first))
    · exact fun c last => isBlank_of_isPlain (plain c (List.mem_of_mem_getLast? last))
  have kept : (characters.map fun c => if c = ' ' ∨ c = '-' then '_' else smallLetter c) =
      characters := by
    conv_rhs => rw [← List.map_id characters]
    exact List.map_congr_left fun c member => spelt_of_isPlain (plain c member)
  rw [normalSpelling, String.toList_ofList, trimmed, kept]

theorem ofDatum?_name (i : Instrument) : ofDatum? (.text i.name) = some i := by
  rw [ofDatum?, normalSpelling_of_plain (plain_name i), ofName?_name]

theorem IsCanonical.exists_name {name : String} (canonical : IsCanonical name) :
    ∃ i : Instrument, i.name = name := by
  rcases canonical with melodic | rfl
  · obtain ⟨index, rfl⟩ := List.mem_iff_get.1 melodic
    exact ⟨.melodic (index.cast melodicNames_length), rfl⟩
  · exact ⟨.percussion, rfl⟩

end Instrument

/-! ## Proper maps -/

namespace PatchMap

def instruments (m : PatchMap) : List Instrument := m.assignments.map Prod.fst

def channels (m : PatchMap) : List Channel := m.assignments.map Prod.snd

/-- Instruments and channels are matched one to one, and the drum kit with its own channel. -/
structure Proper (m : PatchMap) : Prop where
  instruments : m.instruments.Nodup
  channels : m.channels.Nodup
  drums : ∀ entry ∈ m.assignments,
    entry.1 = .percussion ↔ entry.2 = Instrument.percussionChannel

/-- Channels that melodic instruments can still take. -/
structure Spare (m : PatchMap) (free : List Channel) : Prop where
  distinct : free.Nodup
  melodic : ∀ channel ∈ free, channel ≠ Instrument.percussionChannel
  unused : ∀ channel ∈ free, channel ∉ m.channels

/-- The map with one more instrument. -/
def add (m : PatchMap) (i : Instrument) (channel : Channel) : PatchMap :=
  ⟨m.assignments ++ [(i, channel)]⟩

variable {m : PatchMap} {i : Instrument} {channel : Channel} {free : List Channel}
variable {name other : String}

@[simp] theorem instruments_add : (m.add i channel).instruments = m.instruments ++ [i] :=
  List.map_append

@[simp] theorem channels_add : (m.add i channel).channels = m.channels ++ [channel] :=
  List.map_append

theorem proper_empty : empty.Proper := ⟨.nil, .nil, nofun⟩

theorem spare_melodicChannels : empty.Spare melodicChannels := by
  constructor <;> decide

theorem Proper.add (proper : m.Proper) (absent : i ∉ m.instruments) (unused : channel ∉ m.channels)
    (drums : i = .percussion ↔ channel = Instrument.percussionChannel) :
    (m.add i channel).Proper := by
  constructor
  · rw [instruments_add]
    exact List.nodup_append_comm.1 (List.nodup_cons.2 ⟨absent, proper.instruments⟩)
  · rw [channels_add]
    exact List.nodup_append_comm.1 (List.nodup_cons.2 ⟨unused, proper.channels⟩)
  · intro entry member
    rcases List.mem_append.1 member with member | member
    · exact proper.drums entry member
    · rw [List.mem_singleton.1 member]
      exact drums

theorem Spare.add (spare : m.Spare free) (taken : channel ∉ free) :
    (m.add i channel).Spare free := by
  constructor
  · exact spare.distinct
  · exact spare.melodic
  · intro other member
    rw [channels_add, List.mem_append, List.mem_singleton]
    rintro (used | rfl)
    · exact spare.unused other member used
    · exact taken member

theorem Spare.tail (spare : m.Spare (channel :: free)) :
    channel ∉ m.channels ∧ channel ≠ Instrument.percussionChannel ∧
      (m.add i channel).Spare free := by
  obtain ⟨taken, distinct⟩ := List.nodup_cons.1 spare.distinct
  refine ⟨spare.unused channel List.mem_cons_self, spare.melodic channel List.mem_cons_self, ?_⟩
  apply Spare.add _ taken
  constructor
  · exact distinct
  · exact fun other member => spare.melodic other (List.mem_cons_of_mem channel member)
  · exact fun other member => spare.unused other (List.mem_cons_of_mem channel member)

/-- Where the drum kit is not in a proper map, its channel is not in use. -/
theorem Proper.percussionChannel_unused (proper : m.Proper) (absent : .percussion ∉ m.instruments) :
    Instrument.percussionChannel ∉ m.channels := by
  intro used
  obtain ⟨entry, member, channel⟩ := List.mem_map.1 used
  have drums := (proper.drums entry member).2 channel
  exact absent (drums ▸ List.mem_map_of_mem member)

/-! ## Assigning names -/

/-- A new instrument on a channel of its kind that is not in use. -/
theorem assign_new [Limits] (absent : i ∉ m.instruments) (unused : channel ∉ m.channels)
    (drums : i = .percussion ↔ channel = Instrument.percussionChannel) :
    m.assign (.text i.name) channel.val = .ok (m.add i channel) := by
  have alone : m.rival? i channel = none := by
    rw [rival?, Option.map_eq_none_iff, List.find?_eq_none]
    intro entry member taken
    have there : entry.2 = channel := (of_decide_eq_true taken).1
    exact unused (there ▸ List.mem_map_of_mem member)
  have inRange : 0 ≤ (channel.val : Int) ∧ (channel.val : Int) < 16 := by omega
  have same : (⟨(channel.val : Int).toNat, by omega⟩ : Channel) = channel := rfl
  simp only [assign, Instrument.ofDatum?_name, dif_pos inRange, same]
  rw [place, if_pos drums, alone, Keyed.put_of_absent absent]
  rfl

theorem named?_name : m.named? i.name = Keyed.find? i m.assignments := by
  rw [named?, Instrument.ofName?_name, Option.bind_some]

theorem find?_name_of_absent (absent : i ∉ m.instruments) : m.find? (.text i.name) = .ok none := by
  rw [← Keyed.find?_eq_none absent, ← named?_name]
  rfl

theorem assignAll_percussion [Limits] (proper : m.Proper) (absent : .percussion ∉ m.instruments)
    (free : List Channel) (names : List Datum) :
    m.assignAll free (.text Instrument.percussion.name :: names) =
      (m.add .percussion Instrument.percussionChannel).assignAll free names := by
  have named : ((.text Instrument.percussion.name : Datum) == .text Instrument.percussion.name) =
      true := rfl
  rw [assignAll.eq_def]
  dsimp only
  rw [find?_name_of_absent absent, ok_bind, if_pos named,
    assign_new absent (proper.percussionChannel_unused absent) (iff_of_true rfl rfl)]
  rfl

/-- A new melodic instrument takes the next free channel, if there is one. -/
theorem assignAll_melodic [Limits] (absent : i ∉ m.instruments) (melodic : i ≠ .percussion)
    (spare : m.Spare free) (names : List Datum) :
    m.assignAll free (.text i.name :: names) =
      match free with
      | [] => .error (.failed .tooManyInstruments)
      | channel :: free => (m.add i channel).assignAll free names := by
  have named : (i.name == Instrument.percussion.name) = false :=
    beq_eq_false_iff_ne.2 fun same => melodic (Instrument.name_injective same)
  have unlike : ((.text i.name : Datum) == .text Instrument.percussion.name) = false := named
  rw [assignAll.eq_def]
  dsimp only
  rw [find?_name_of_absent absent, ok_bind]
  simp only [unlike]
  cases free with
  | nil => rfl
  | cons channel free =>
      obtain ⟨unused, kind, -⟩ := spare.tail (i := i)
      simp only [assign_new absent unused (iff_of_false melodic kind)]
      rfl

/-- Of different instruments that are not in the map, the others are not after the first is put. -/
theorem new_after_add {others : List Instrument} (apart : i ∉ others)
    (new : ∀ other ∈ i :: others, other ∉ m.instruments) (channel : Channel) :
    ∀ other ∈ others, other ∉ (m.add i channel).instruments := by
  intro other member present
  rw [instruments_add, List.mem_append, List.mem_singleton] at present
  rcases present with present | rfl
  · exact new other (List.mem_cons_of_mem i member) present
  · exact apart member

/-- Different instruments that are not in the map yet are added in their order, unless there are
more melodic ones than free channels. -/
theorem assignAll_names [Limits] {instruments : List Instrument} (proper : m.Proper)
    (spare : m.Spare free)
    (distinct : instruments.Nodup) (new : ∀ i ∈ instruments, i ∉ m.instruments) :
    if instruments.countP (· ≠ .percussion) ≤ free.length then
      ∃ full, m.assignAll free (instruments.map fun i => .text i.name) = .ok full ∧ full.Proper ∧
        full.instruments = m.instruments ++ instruments
    else m.assignAll free (instruments.map fun i => .text i.name) =
      .error (.failed .tooManyInstruments) := by
  induction instruments generalizing m free with
  | nil => exact ⟨m, rfl, proper, (List.append_nil _).symm⟩
  | cons i others ih =>
      obtain ⟨apart, othersDistinct⟩ := List.nodup_cons.1 distinct
      have absent := new i List.mem_cons_self
      have stillNew := new_after_add apart new
      rw [List.map_cons, List.countP_cons]
      by_cases drums : i = .percussion
      · -- The drum kit takes none of the free channels.
        subst drums
        have added := proper.add absent (proper.percussionChannel_unused absent)
          (iff_of_true rfl rfl)
        have spare := spare.add (i := .percussion) fun member => spare.melodic _ member rfl
        have rest := ih added spare othersDistinct (stillNew _)
        simpa [assignAll_percussion proper absent] using rest
      · rw [assignAll_melodic absent drums spare]
        cases free with
        | nil => simp [drums]
        | cons channel free =>
            obtain ⟨unused, kind, spare⟩ := spare.tail (i := i)
            have added := proper.add absent unused (iff_of_false drums kind)
            have rest := ih added spare othersDistinct (stillNew channel)
            simpa [drums] using rest

/-- A map for different instruments: there is one exactly if no more than fifteen of them are
melodic, and then it is proper and holds them all. -/
theorem forInstruments_names [Limits] {instruments : List Instrument}
    (distinct : instruments.Nodup) :
    if instruments.countP (· ≠ .percussion) ≤ 15 then
      ∃ full, forInstruments (instruments.map fun i => .text i.name) = .ok full ∧ full.Proper ∧
        full.instruments = instruments
    else forInstruments (instruments.map fun i => .text i.name) =
      .error (.failed .tooManyInstruments) :=
  assignAll_names proper_empty spare_melodicChannels distinct fun _ _ => List.not_mem_nil

/-! ## Looking up -/

theorem exists_of_named? (found : m.named? name = some channel) :
    ∃ i : Instrument, i.name = name ∧ (i, channel) ∈ m.assignments := by
  obtain ⟨i, named, assigned⟩ := Option.bind_eq_some_iff.1 found
  exact ⟨i, Instrument.name_of_ofName? named, Keyed.mem_of_find? assigned⟩

/-- Instruments of a proper map have the same channel only if they are the same. -/
theorem Proper.named?_eq_iff (proper : m.Proper) {shared : Channel}
    (first : m.named? name = some channel) (second : m.named? other = some shared) :
    channel = shared ↔ name = other := by
  constructor
  · rintro rfl
    obtain ⟨i, rfl, iMem⟩ := exists_of_named? first
    obtain ⟨j, rfl, jMem⟩ := exists_of_named? second
    have same := List.inj_on_of_nodup_map proper.channels iMem jMem rfl
    rw [(Prod.mk.inj same).1]
  · rintro rfl
    exact Option.some.inj (first.symm.trans second)

theorem Proper.percussion_iff (proper : m.Proper) (found : m.named? name = some channel) :
    channel = Instrument.percussionChannel ↔ name = Instrument.percussion.name := by
  obtain ⟨i, rfl, member⟩ := exists_of_named? found
  rw [Instrument.name_injective.eq_iff]
  exact (proper.drums _ member).symm

theorem exists_named?_of_mem (present : i ∈ m.instruments) :
    ∃ channel, m.named? i.name = some channel := by
  rw [named?_name]
  exact Keyed.exists_find?_of_mem present

theorem channel_of_named? [Limits] (found : m.named? name = some channel) :
    m.channel (.text name) = .ok channel := by
  simp only [PatchMap.channel, find?, Datum.isNameable, if_true, ok_bind, found]

end PatchMap

end MusicAlgebra
