import Mathlib.Data.Finset.Card
import MusicAlgebra.Proofs.AssignmentHistories

/-!
# Looking up channels

An instrument is assigned under any spelling of its name, but looked up under the canonical one
alone.  There it is found on its channel until it is put on another one; under every other spelling
it has none.  So a map that is made for a list of spellings holds all their instruments, but spends
a channel on each spelling that is not canonical, and there is none if the drum kit is misspelt.
-/

namespace MusicAlgebra

open Outcome

theorem Keyed.mem_keys_put {κ ν : Type} [DecidableEq κ] {key other : κ} {value : ν}
    {entries : List (κ × ν)} :
    other ∈ (put key value entries).map Prod.fst ↔ other = key ∨ other ∈ entries.map Prod.fst := by
  induction entries with
  | nil => simp [put]
  | cons first rest ih =>
      obtain ⟨present, old⟩ := first
      unfold put
      split
      · rename_i same
        subst same
        simp
      · rw [List.map_cons, List.mem_cons, ih, List.map_cons, List.mem_cons]
        exact or_left_comm

namespace Instrument

variable {given : Datum} {i : Instrument}

/-- The instrument that has a datum for its canonical name. -/
def canonical? : Datum → Option Instrument
  | .text name => ofName? name
  | _ => none

theorem canonical?_name (i : Instrument) : canonical? (.text i.name) = some i := ofName?_name i

theorem eq_name_of_canonical? (canonical : canonical? given = some i) : given = .text i.name := by
  cases given with
  | text name => rw [name_of_ofName? canonical]
  | _ => cases canonical

/-- A name that is canonical at all is canonical for the instrument that it names. -/
theorem canonical?_eq_none (known : ofDatum? given = some i) (misspelt : given ≠ .text i.name) :
    canonical? given = none := by
  cases canonical : canonical? given with
  | none => rfl
  | some other =>
      have spelt := eq_name_of_canonical? canonical
      rw [spelt, ofDatum?_name] at known
      cases known
      exact absurd spelt misspelt

theorem isNameable_of_known (known : ofDatum? given = some i) : given.isNameable = true := by
  cases given with
  | list items => cases known
  | mapping entries => cases known
  | _ => rfl

/-- The numbers of programs are short. -/
theorem isWritable_of_known [Limits] (known : ofDatum? given = some i) :
    given.isWritable = true := by
  cases given with
  | int number =>
      rw [ofDatum?] at known
      split at known
      · rename_i inRange
        have small : number.natAbs < 10 ^ 3 := by omega
        have admitted := Number.admits_of_le (by decide : 3 ≤ 640)
        exact (Number.isWritable_intCast _).trans (Number.isShort_of_lt admitted small)
      · cases known
  | list items => cases known
  | mapping entries => cases known
  | _ => rfl

theorem beq_name_eq_false (known : ofDatum? given = some i) (misspelt : given ≠ .text i.name)
    (j : Instrument) : (given == .text j.name) = false := by
  cases given with
  | text name =>
      have different : name ≠ j.name := by
        rintro rfl
        rw [ofDatum?_name] at known
        cases known
        exact misspelt rfl
      have unlike : (name == j.name) = false := beq_eq_false_iff_ne.2 different
      exact unlike
  | int number => rfl
  | _ => cases known

end Instrument

namespace PatchMap

variable {m placed full made : PatchMap} {i j : Instrument} {channel there : Channel}
variable {given name : Datum} {names : List Datum} {free : List Channel} {attempt : Attempt}
variable {attempts : List Attempt}

/-! ## Looking up a spelling -/

theorem find?_name (m : PatchMap) (i : Instrument) :
    m.find? (.text i.name) = .ok (Keyed.find? i m.assignments) :=
  congrArg Except.ok named?_name

theorem find?_misspelt (known : Instrument.ofDatum? given = some i)
    (misspelt : given ≠ .text i.name) (m : PatchMap) : m.find? given = .ok none := by
  rw [find?.eq_def, if_pos (Instrument.isNameable_of_known known)]
  cases given with
  | text name =>
      have unnamed : Instrument.ofName? name = none := Instrument.canonical?_eq_none known misspelt
      exact congrArg Except.ok (by rw [named?, unnamed, Option.bind_none])
  | _ => rfl

theorem channel_of_find? [Limits] (found : m.find? given = .ok (some channel)) :
    m.channel given = .ok channel := by
  rw [PatchMap.channel, found, ok_bind]

theorem channel_of_absent [Limits] (absent : m.find? given = .ok none) :
    m.channel given = .error (.told (.unassigned given)) := by
  rw [PatchMap.channel, absent, ok_bind]

theorem channel_misspelt [Limits] (known : Instrument.ofDatum? given = some i)
    (misspelt : given ≠ .text i.name) (m : PatchMap) :
    m.channel given = .error (.failed (.unassigned given)) := by
  rw [channel_of_absent (find?_misspelt known misspelt m)]
  exact congrArg Except.error (if_pos (Instrument.isWritable_of_known known))

theorem channel_name_iff [Limits] :
    m.channel (.text i.name) = .ok channel ↔ Keyed.find? i m.assignments = some channel := by
  cases found : Keyed.find? i m.assignments with
  | some held =>
      rw [channel_of_find? (by rw [find?_name, found])]
      exact ⟨fun same => congrArg some (Except.ok.inj same), fun same => by cases same; rfl⟩
  | none =>
      rw [channel_of_absent (by rw [find?_name, found])]
      exact iff_of_false nofun nofun

/-- What is found under the spellings of an instrument that is in the map. -/
structure Found [Limits] (m : PatchMap) (i : Instrument) (channel : Channel) : Prop where
  canonical : m.find? (.text i.name) = .ok (some channel) ∧ m.channel (.text i.name) = .ok channel
  misspelt : ∀ given, Instrument.ofDatum? given = some i → given ≠ .text i.name →
    m.find? given = .ok none ∧ m.channel given = .error (.failed (.unassigned given))

theorem found_of_find? [Limits] (held : Keyed.find? i m.assignments = some channel) :
    m.Found i channel where
  canonical := ⟨by rw [find?_name, held], channel_name_iff.2 held⟩
  misspelt given known misspelt :=
    ⟨find?_misspelt known misspelt m, channel_misspelt known misspelt m⟩

/-! ## Until the next assignment -/

/-- None of the attempts, one after the other, puts the instrument on a channel. -/
def Leaves [Limits] (i : Instrument) : PatchMap → List Attempt → Prop
  | _, [] => True
  | m, attempt :: attempts =>
    (Instrument.ofDatum? attempt.given = some i →
      ∃ cause, m.assign attempt.given attempt.channel = .error cause) ∧
    Leaves i (m.after attempt) attempts

theorem find?_after [Limits] (left : Instrument.ofDatum? attempt.given = some i →
      ∃ cause, m.assign attempt.given attempt.channel = .error cause) :
    Keyed.find? i (m.after attempt).assignments = Keyed.find? i m.assignments := by
  cases outcome : m.assign attempt.given attempt.channel with
  | error cause => rw [after_of_error outcome]
  | ok placed =>
      obtain ⟨other, channel, known, -, -, rfl⟩ := exists_put_of_assign outcome
      have different : i ≠ other := by
        rintro rfl
        obtain ⟨cause, failed⟩ := left known
        cases outcome.symm.trans failed
      rw [after_of_ok outcome]
      exact Keyed.find?_put_of_ne different channel m.assignments

theorem find?_afterAll [Limits] (left : Leaves i m attempts) :
    Keyed.find? i (m.afterAll attempts).assignments = Keyed.find? i m.assignments := by
  induction attempts generalizing m with
  | nil => rfl
  | cons attempt attempts ih => exact (ih left.2).trans (find?_after left.1)

/-- What has been assigned is found on its channel. -/
theorem found_after_assign [Limits] {number : Int} (assigned : m.assign given number = .ok placed) :
    ∃ i channel, Instrument.ofDatum? given = some i ∧ number = channel.val ∧
      ∀ later, Leaves i placed later → (placed.afterAll later).Found i channel := by
  obtain ⟨i, channel, known, number, -, rfl⟩ := exists_put_of_assign assigned
  refine ⟨i, channel, known, number, fun later left => found_of_find? ?_⟩
  rw [find?_afterAll left]
  exact Keyed.find?_put_self i channel m.assignments

/-! ## Covering a list of spellings -/

@[simp] theorem mem_instruments_put :
    j ∈ (m.put i channel).instruments ↔ j = i ∨ j ∈ m.instruments :=
  Keyed.mem_keys_put

theorem mem_instruments_of_assign [Limits] {number : Int}
    (assigned : m.assign given number = .ok placed)
    (present : i ∈ m.instruments) : i ∈ placed.instruments := by
  obtain ⟨other, channel, -, -, -, rfl⟩ := exists_put_of_assign assigned
  exact mem_instruments_put.2 (.inr present)

/-- A map that is made for some spellings has all the instruments that they name. -/
theorem covers_of_assignAll [Limits] (run : m.assignAll free names = .ok full)
    (member : name ∈ names)
    (known : Instrument.ofDatum? name = some i) : i ∈ full.instruments := by
  have kept {before : PatchMap} {free : List Channel} {names : List Datum}
      (present : i ∈ before.instruments) (run : before.assignAll free names = .ok full) :
      i ∈ full.instruments :=
    assignAll_invariant (fun _ _ _ _ present assigned => mem_instruments_of_assign assigned present)
      present run
  induction names generalizing m free with
  | nil => cases member
  | cons first names ih =>
      rcases assignAll_cons_eq_ok run with
        ⟨⟨held, found⟩, rest⟩ | ⟨-, channel, _, next, -, assigned, rest⟩
      · rcases List.mem_cons.1 member with rfl | member
        · -- What is found is found under its canonical name.
          by_cases spelt : name = .text i.name
          · rw [spelt, find?_name] at found
            have entry := Keyed.mem_of_find? (Except.ok.inj found)
            exact kept (List.mem_map_of_mem entry) rest
          · rw [find?_misspelt known spelt] at found
            cases found
        · exact ih rest member
      · rcases List.mem_cons.1 member with rfl | member
        · obtain ⟨other, _, named, -, -, rfl⟩ := exists_put_of_assign assigned
          cases known.symm.trans named
          exact kept (mem_instruments_put.2 (.inl rfl)) rest
        · exact ih rest member

/-- The drum kit under another spelling would have to take a melodic channel. -/
theorem not_assignAll_of_misspelt_drums [Limits]
    (melodic : ∀ channel ∈ free, channel ≠ Instrument.percussionChannel)
    (member : name ∈ names) (known : Instrument.ofDatum? name = some .percussion)
    (misspelt : name ≠ .text Instrument.percussion.name) : m.assignAll free names ≠ .ok full := by
  intro run
  induction names generalizing m free with
  | nil => cases member
  | cons first names ih =>
      rcases assignAll_cons_eq_ok run with
        ⟨⟨held, found⟩, rest⟩ | ⟨-, channel, left, next, taken, assigned, rest⟩
      · rcases List.mem_cons.1 member with rfl | member
        · rw [find?_misspelt known misspelt] at found
          cases found
        · exact ih melodic member rest
      · rcases taken with ⟨named, -, rfl⟩ | ⟨-, rfl⟩
        · rcases List.mem_cons.1 member with rfl | member
          · rw [Instrument.beq_name_eq_false known misspelt] at named
            cases named
          · exact ih melodic member rest
        · rcases List.mem_cons.1 member with rfl | member
          · obtain ⟨other, there, same, number, admits, -⟩ := exists_put_of_assign assigned
            cases known.symm.trans same
            have equal : channel = there := Fin.ext (Int.ofNat.inj number)
            have drums := admits.drums.1 rfl
            exact melodic channel List.mem_cons_self (equal.trans drums)
          · exact ih (fun other later => melodic other (List.mem_cons_of_mem channel later)) member
              rest

/-! ## Channels that are spent -/

/-- The melodic instruments that come under their canonical names and are not in the map yet. -/
def newcomers (m : PatchMap) (names : List Datum) : Finset Instrument :=
  (names.filterMap Instrument.canonical?).toFinset.erase .percussion \ m.instruments.toFinset

/-- Channels enough for a list of spellings: one for each melodic instrument that is new under its
canonical name, and one for each spelling that is not canonical. -/
def demand (m : PatchMap) (names : List Datum) : Nat :=
  names.countP (fun name => (Instrument.canonical? name).isNone) + (m.newcomers names).card

theorem mem_newcomers :
    i ∈ m.newcomers names ↔
      (i ≠ .percussion ∧ .text i.name ∈ names) ∧ i ∉ m.instruments := by
  have canonical : (∃ name ∈ names, Instrument.canonical? name = some i) ↔
      Datum.text i.name ∈ names := by
    constructor
    · rintro ⟨name, member, canonical⟩
      exact Instrument.eq_name_of_canonical? canonical ▸ member
    · exact fun member => ⟨_, member, Instrument.canonical?_name i⟩
  rw [newcomers, Finset.mem_sdiff, Finset.mem_erase, List.mem_toFinset, List.mem_toFinset,
    List.mem_filterMap, canonical]

/-- An instrument that is put on a channel is not new any more, and the others are as new. -/
theorem newcomers_put :
    (m.put i channel).newcomers names = (m.newcomers names).erase i := by
  ext other
  simp only [mem_newcomers, mem_instruments_put, Finset.mem_erase]
  tauto

theorem newcomers_subset_cons (m : PatchMap) (name : Datum) (names : List Datum) :
    m.newcomers names ⊆ m.newcomers (name :: names) := by
  intro i member
  rw [mem_newcomers] at member ⊢
  exact ⟨⟨member.1.1, List.mem_cons_of_mem name member.1.2⟩, member.2⟩

theorem demand_le_cons (m : PatchMap) (name : Datum) (names : List Datum) :
    m.demand names ≤ m.demand (name :: names) :=
  Nat.add_le_add (List.sublist_cons_self name names).countP_le
    (Finset.card_le_card (newcomers_subset_cons m name names))

theorem demand_put_le (m : PatchMap) (i : Instrument) (channel : Channel) (names : List Datum) :
    (m.put i channel).demand names ≤ m.demand names := by
  rw [demand, demand, newcomers_put]
  exact Nat.add_le_add_left (Finset.card_le_card (Finset.erase_subset i _)) _

/-- A spelling that is not canonical spends a channel. -/
theorem demand_misspelt (misspelt : Instrument.canonical? name = none) :
    (m.put i channel).demand names < m.demand (name :: names) := by
  have fewer := demand_put_le m i channel names
  have more := Finset.card_le_card (newcomers_subset_cons m name names)
  simp only [demand, List.countP_cons, misspelt, Option.isNone_none, if_true] at fewer ⊢
  omega

/-- A new melodic instrument spends a channel. -/
theorem demand_newcomer (melodic : i ≠ .percussion) (absent : i ∉ m.instruments) :
    (m.put i channel).demand names < m.demand (.text i.name :: names) := by
  have new : i ∈ m.newcomers (.text i.name :: names) :=
    mem_newcomers.2 ⟨⟨melodic, List.mem_cons_self⟩, absent⟩
  have fewer := Finset.card_le_card (Finset.erase_subset_erase i
    (newcomers_subset_cons m (.text i.name) names))
  have spent := Finset.card_erase_lt_of_mem new
  simp only [demand, newcomers_put, List.countP_cons, Instrument.canonical?_name,
    Option.isNone_some, Bool.false_eq_true, if_false]
  omega

/-! ## Making a map -/

theorem put_of_absent (absent : i ∉ m.instruments) (channel : Channel) :
    m.put i channel = m.add i channel := by
  rw [put, Keyed.put_of_absent absent]
  rfl

theorem mem_channels_put (used : there ∈ (m.put i channel).channels) :
    there = channel ∨ there ∈ m.channels := by
  obtain ⟨entry, member, rfl⟩ := List.mem_map.1 used
  rcases Keyed.mem_put member with rfl | member
  · exact .inl rfl
  · exact .inr (List.mem_map_of_mem member)

/-- A channel that is not in use admits an instrument of its kind. -/
theorem admits_of_unused (unused : channel ∉ m.channels)
    (drums : i = .percussion ↔ channel = Instrument.percussionChannel) : m.Admits i channel where
  drums := drums
  free _ member there := absurd (there ▸ List.mem_map_of_mem member) unused

theorem Spare.put (spare : m.Spare (channel :: free)) (i : Instrument) :
    (m.put i channel).Spare free := by
  obtain ⟨taken, distinct⟩ := List.nodup_cons.1 spare.distinct
  refine ⟨distinct, fun other member => spare.melodic other (List.mem_cons_of_mem _ member), ?_⟩
  intro other member used
  rcases mem_channels_put used with rfl | used
  · exact taken member
  · exact spare.unused other (List.mem_cons_of_mem _ member) used

theorem assignAll_present [Limits] (present : i ∈ m.instruments) (free : List Channel)
    (names : List Datum) :
    m.assignAll free (.text i.name :: names) = m.assignAll free names := by
  obtain ⟨channel, held⟩ := Keyed.exists_find?_of_mem present
  rw [assignAll.eq_def]
  dsimp only
  rw [find?_name, held, ok_bind]

/-- A spelling that is not canonical takes the next free channel, even for an instrument that has
one already. -/
theorem assignAll_misspelt [Limits] (known : Instrument.ofDatum? name = some i)
    (misspelt : name ≠ .text i.name) (melodic : i ≠ .percussion)
    (spare : m.Spare (channel :: free)) (names : List Datum) :
    m.assignAll (channel :: free) (name :: names) = (m.put i channel).assignAll free names := by
  have unused := spare.unused channel List.mem_cons_self
  have kind := spare.melodic channel List.mem_cons_self
  rw [assignAll.eq_def]
  dsimp only
  rw [find?_misspelt known misspelt, ok_bind]
  simp only [Instrument.beq_name_eq_false known misspelt, assign_known known,
    place_of_admits (admits_of_unused unused (iff_of_false melodic kind))]
  rfl

/-- A spelling that can be assigned automatically: it is accepted, and canonical if it is one of the
drum kit. -/
def Assignable (name : Datum) : Prop :=
  ∃ i, Instrument.ofDatum? name = some i ∧ (i = .percussion → name = .text i.name)

/-- The free channels of a map suffice for the names that are left. -/
structure Supplied (m : PatchMap) (free : List Channel) (names : List Datum) : Prop where
  proper : m.Proper
  spare : m.Spare free
  enough : m.demand names ≤ free.length

namespace Supplied

variable (supplied : m.Supplied free (name :: names))

include supplied

theorem pass : m.Supplied free names :=
  ⟨supplied.proper, supplied.spare, (demand_le_cons m name names).trans supplied.enough⟩

/-- The drum kit takes none of the free channels. -/
theorem addDrums (absent : .percussion ∉ m.instruments) :
    (m.add .percussion Instrument.percussionChannel).Supplied free names := by
  obtain ⟨proper, spare, enough⟩ := supplied.pass
  have unused := proper.percussionChannel_unused absent
  have less := demand_put_le m .percussion Instrument.percussionChannel names
  rw [put_of_absent absent] at less
  exact ⟨proper.add absent unused (iff_of_true rfl rfl),
    spare.add fun taken => spare.melodic _ taken rfl, less.trans enough⟩

/-- Where a channel is spent there is one, and the others suffice for the rest. -/
theorem put (melodic : i ≠ .percussion)
    (spent : ∀ channel, (m.put i channel).demand names < m.demand (name :: names)) :
    ∃ channel rest, free = channel :: rest ∧ (m.put i channel).Supplied rest names := by
  obtain ⟨proper, spare, enough⟩ := supplied
  cases free with
  | nil => exact absurd ((spent Instrument.percussionChannel).trans_le enough) (Nat.not_lt_zero _)
  | cons channel free =>
      have admits := admits_of_unused (spare.unused channel List.mem_cons_self)
        (iff_of_false melodic (spare.melodic channel List.mem_cons_self))
      exact ⟨channel, free, rfl, proper.put admits, spare.put i,
        Nat.le_of_lt_succ ((spent channel).trans_le enough)⟩

/-- The first name can be dealt with such that the channels left suffice for the others. -/
theorem step [Limits] (assignable : Assignable name) :
    ∃ (next : PatchMap) (rest : List Channel),
      m.assignAll free (name :: names) = next.assignAll rest names ∧
        next.Supplied rest names := by
  obtain ⟨i, known, drums⟩ := assignable
  by_cases canonical : name = .text i.name
  · subst canonical
    by_cases present : i ∈ m.instruments
    · exact ⟨m, free, assignAll_present present free names, supplied.pass⟩
    by_cases percussion : i = .percussion
    · subst percussion
      exact ⟨_, free, assignAll_percussion supplied.proper present free names,
        supplied.addDrums present⟩
    · obtain ⟨channel, rest, rfl, left⟩ := supplied.put percussion fun channel =>
        demand_newcomer percussion present
      refine ⟨_, rest, ?_, left⟩
      rw [assignAll_melodic present percussion supplied.spare, put_of_absent present]
  · have melodic : i ≠ .percussion := fun same => canonical (drums same)
    obtain ⟨channel, rest, rfl, left⟩ := supplied.put melodic fun channel =>
      demand_misspelt (Instrument.canonical?_eq_none known canonical)
    exact ⟨_, rest, assignAll_misspelt known canonical melodic supplied.spare names, left⟩

end Supplied

theorem Supplied.exists_assignAll [Limits] (supplied : m.Supplied free names)
    (assignable : ∀ name ∈ names, Assignable name) :
    ∃ full, m.assignAll free names = .ok full := by
  induction names generalizing m free with
  | nil => exact ⟨m, rfl⟩
  | cons name names ih =>
      obtain ⟨first, others⟩ := List.forall_mem_cons.1 assignable
      obtain ⟨next, rest, goesOn, left⟩ := supplied.step first
      rw [goesOn]
      exact ih left others

/-- A list is mapped if no more channels are spent on it than there are for melodic instruments. -/
theorem exists_forInstruments_of_demand [Limits] (assignable : ∀ name ∈ names, Assignable name)
    (enough : empty.demand names ≤ 15) : ∃ made, forInstruments names = .ok made :=
  have channels : empty.Supplied melodicChannels names :=
    ⟨proper_empty, spare_melodicChannels, enough⟩
  channels.exists_assignAll assignable

theorem forInstruments_of_misspelt_drums [Limits] (member : name ∈ names)
    (known : Instrument.ofDatum? name = some .percussion)
    (misspelt : name ≠ .text Instrument.percussion.name) :
    ∃ cause, forInstruments names = .error cause := by
  cases outcome : forInstruments names with
  | error cause => exact ⟨cause, rfl⟩
  | ok made =>
      exact absurd outcome
        (not_assignAll_of_misspelt_drums spare_melodicChannels.melodic member known misspelt)

/-- Canonical names spend no more channels than there are melodic instruments among them. -/
theorem demand_le_of_canonical (canonical : ∀ name ∈ names, ∃ i : Instrument, name = .text i.name) :
    empty.demand names ≤
      ((names.filterMap Instrument.ofDatum?).toFinset.erase .percussion).card := by
  have spelt : names.countP (fun name => (Instrument.canonical? name).isNone) = 0 := by
    rw [List.countP_eq_zero]
    intro name member
    obtain ⟨i, rfl⟩ := canonical name member
    simp [Instrument.canonical?_name]
  rw [demand, spelt, Nat.zero_add]
  apply Finset.card_le_card
  intro i new
  obtain ⟨⟨melodic, member⟩, -⟩ := mem_newcomers.1 new
  rw [Finset.mem_erase, List.mem_toFinset]
  exact ⟨melodic, List.mem_filterMap.2 ⟨_, member, Instrument.ofDatum?_name i⟩⟩

/-- Instruments that are found on one channel of a proper map are the same. -/
theorem Proper.channel_name_iff [Limits] (proper : m.Proper) (found : m.Found i channel) :
    m.channel (.text j.name) = .ok channel ↔ j = i := by
  constructor
  · intro shared
    have first := Keyed.mem_of_find? (PatchMap.channel_name_iff.1 shared)
    have second := Keyed.mem_of_find? (PatchMap.channel_name_iff.1 found.canonical.2)
    have same := List.inj_on_of_nodup_map proper.channels first second rfl
    exact (Prod.mk.inj same).1
  · rintro rfl
    exact found.canonical.2

/-- A map that is made for a list has the instruments of all its spellings. -/
theorem found_of_forInstruments [Limits] (run : forInstruments names = .ok made)
    (member : name ∈ names)
    (known : Instrument.ofDatum? name = some i) : ∃ channel, made.Found i channel := by
  have present := covers_of_assignAll run member known
  obtain ⟨channel, held⟩ := Keyed.exists_find?_of_mem present
  exact ⟨channel, found_of_find? held⟩

/-- All the spellings of a list are in a map, two of them on the same channel only if they name the
same instrument. -/
structure Covers [Limits] (made : PatchMap) (names : List Datum) : Prop where
  found : ∀ name ∈ names, ∃ channel,
    made.find? name = .ok (some channel) ∧ made.channel name = .ok channel
  shared : ∀ name ∈ names, ∀ other ∈ names,
    made.channel name = made.channel other ↔ Instrument.ofDatum? name = Instrument.ofDatum? other

theorem Covers.canonical [Limits] (covers : made.Covers names)
    (accepted : ∀ name ∈ names, (Instrument.ofDatum? name).isSome) :
    ∀ name ∈ names, ∃ i : Instrument, name = .text i.name := by
  intro name member
  obtain ⟨i, known⟩ := Option.isSome_iff_exists.1 (accepted name member)
  refine ⟨i, by_contra fun misspelt => ?_⟩
  obtain ⟨channel, found, -⟩ := covers.found name member
  cases found.symm.trans (find?_misspelt known misspelt made)

theorem covers_of_canonical [Limits] (run : forInstruments names = .ok made)
    (canonical : ∀ name ∈ names, ∃ i : Instrument, name = .text i.name) : made.Covers names where
  found name member := by
    obtain ⟨i, rfl⟩ := canonical name member
    obtain ⟨channel, found⟩ := found_of_forInstruments run member (Instrument.ofDatum?_name i)
    exact ⟨channel, found.canonical⟩
  shared name member other otherMember := by
    obtain ⟨i, rfl⟩ := canonical name member
    obtain ⟨j, rfl⟩ := canonical other otherMember
    obtain ⟨channel, found⟩ := found_of_forInstruments run otherMember
      (Instrument.ofDatum?_name j)
    rw [found.canonical.2, (Founded.forInstruments run).proper.channel_name_iff found,
      Instrument.ofDatum?_name, Instrument.ofDatum?_name, Option.some.injEq]

/-- A list that names no more than fifteen melodic instruments is covered if its spellings are
canonical, and only then. -/
theorem exists_covers_iff [Limits] (accepted : ∀ name ∈ names, (Instrument.ofDatum? name).isSome)
    (few : ((names.filterMap Instrument.ofDatum?).toFinset.erase .percussion).card ≤ 15) :
    (∃ made, forInstruments names = .ok made ∧ made.Covers names) ↔
      ∀ name ∈ names, ∃ i : Instrument, name = .text i.name := by
  constructor
  · rintro ⟨made, -, covers⟩
    exact covers.canonical accepted
  · intro canonical
    have assignable : ∀ name ∈ names, Assignable name := by
      intro name member
      obtain ⟨i, rfl⟩ := canonical name member
      exact ⟨i, Instrument.ofDatum?_name i, fun _ => rfl⟩
    obtain ⟨made, run⟩ := exists_forInstruments_of_demand assignable
      ((demand_le_of_canonical canonical).trans few)
    exact ⟨made, run, covers_of_canonical run canonical⟩

/-- What is assigned under any spelling is found on its channel until the instrument is assigned
again, but under its canonical name alone.  A list that names no more than fifteen melodic
instruments, in any order and with repetitions, is covered by a map exactly if all its spellings are
canonical.  For other accepted spellings there is a map if the channels suffice for those as well
and the drum kit is spelt canonically.  It finds the instruments of the whole list, each on its own
channel, again under their canonical names alone. -/
theorem found_under_canonical_names [Limits] {given : Datum} {number : Int} {names : List Datum}
    (assigned : m.assign given number = .ok placed)
    (accepted : ∀ name ∈ names, (Instrument.ofDatum? name).isSome) :
    (∃ i channel, Instrument.ofDatum? given = some i ∧ number = channel.val ∧
      ∀ later, Leaves i placed later → (placed.afterAll later).Found i channel ∧
        ((placed.afterAll later).channel given = .ok channel ↔ given = .text i.name)) ∧
      (((names.filterMap Instrument.ofDatum?).toFinset.erase .percussion).card ≤ 15 →
        ((∃ made, forInstruments names = .ok made ∧ made.Covers names) ↔
          ∀ name ∈ names, ∃ i : Instrument, name = .text i.name)) ∧
      ((∃ name ∈ names, ¬ Assignable name) → ∃ cause, forInstruments names = .error cause) ∧
      ((∀ name ∈ names, Assignable name) → empty.demand names ≤ 15 →
        ∃ made, forInstruments names = .ok made) ∧
      ∀ made, forInstruments names = .ok made → ∀ name ∈ names, ∀ i,
        Instrument.ofDatum? name = some i → ∃ channel, made.Found i channel ∧
          ∀ other ∈ names, ∀ j, Instrument.ofDatum? other = some j →
            (made.channel (.text j.name) = .ok channel ↔ j = i) := by
  refine ⟨?lookup, exists_covers_iff accepted, ?misspelt, exists_forInstruments_of_demand, ?made⟩
  case lookup =>
    obtain ⟨i, channel, known, number, found⟩ := found_after_assign assigned
    refine ⟨i, channel, known, number, fun later left => ⟨found later left, ?_⟩⟩
    constructor
    · intro there
      by_contra misspelt
      cases there.symm.trans ((found later left).misspelt given known misspelt).2
    · rintro rfl
      exact (found later left).canonical.2
  case misspelt =>
    rintro ⟨name, member, unassignable⟩
    obtain ⟨i, known⟩ := Option.isSome_iff_exists.1 (accepted name member)
    by_cases drums : i = .percussion
    · subst drums
      refine forInstruments_of_misspelt_drums member known fun spelt => ?_
      exact unassignable ⟨_, known, fun _ => spelt⟩
    · exact absurd ⟨i, known, fun same => absurd same drums⟩ unassignable
  case made =>
    intro made run name member i known
    obtain ⟨channel, found⟩ := found_of_forInstruments run member known
    exact ⟨channel, found, fun _ _ _ _ =>
      (Founded.forInstruments run).proper.channel_name_iff found⟩

/-- The violin on channel 3 and nothing else. -/
def soloViolin [Limits] : PatchMap := empty.after ⟨.text "violin", 3⟩

/-- The violin in two spellings, with the drum kit and the trumpet. -/
def spellings : List Datum := [.text " VIOLIN", .text "percussion", .text "violin", .int 56]

open Usual

theorem spellings_found :
    empty.assign (.text "Violin") 3 = .ok soloViolin ∧
      (∀ name ∈ spellings, (Instrument.ofDatum? name).isSome) ∧
      Leaves (.melodic 40) soloViolin [⟨.text "viola", 4⟩, ⟨.int 40, 9⟩] ∧
      (soloViolin.afterAll [⟨.text "viola", 4⟩, ⟨.int 40, 9⟩]).Found (.melodic 40) 3 ∧
      (∀ name ∈ spellings, Assignable name) ∧ empty.demand spellings = 3 ∧
      ∃ made, forInstruments spellings = .ok made ∧
        ∃ channel, made.Found (.melodic 40) channel := by
  have assigned : empty.assign (.text "Violin") 3 = .ok soloViolin := by
    apply eq_ok_of_toOption
    decide +kernel
  have accepted : ∀ name ∈ spellings, (Instrument.ofDatum? name).isSome := by decide +kernel
  have left : Leaves (.melodic 40) soloViolin [⟨.text "viola", 4⟩, ⟨.int 40, 9⟩] :=
    ⟨fun known => absurd known (by decide +kernel), fun _ => ⟨.failed .percussionChannel, rfl⟩,
      trivial⟩
  have assignable : ∀ name ∈ spellings, Assignable name := by
    simp only [spellings, List.forall_mem_cons]
    exact ⟨⟨.melodic 40, by decide +kernel, nofun⟩, ⟨.percussion, by decide +kernel, fun _ => rfl⟩,
      ⟨.melodic 40, by decide +kernel, nofun⟩, ⟨.melodic 56, by decide +kernel, nofun⟩, nofun⟩
  have demand : empty.demand spellings = 3 := by decide +kernel
  obtain ⟨⟨i, channel, known, number, found⟩, -, -, exists_made, made_found⟩ :=
    found_under_canonical_names assigned accepted
  have violin : i = .melodic 40 := by
    have spelt : Instrument.ofDatum? (.text "Violin") = some (.melodic 40) := by decide +kernel
    exact Option.some.inj (known.symm.trans spelt)
  have third : channel = 3 := Fin.ext (Int.ofNat.inj number.symm)
  subst violin third
  obtain ⟨made, run⟩ := exists_made assignable (demand.trans_le (by decide))
  obtain ⟨held, heldFound, -⟩ := made_found made run (.text "violin") (by simp [spellings])
    (.melodic 40) (by decide +kernel)
  exact ⟨assigned, accepted, left, (found _ left).1, assignable, demand, made, run, held,
    heldFound⟩

/-- A capital violin is assigned, but cannot be looked up again, and a capital drum kit is taken for
a melodic instrument. -/
theorem capital_spellings_missing :
    (∃ placed, empty.assign (.text "Violin") 3 = .ok placed ∧
      placed.find? (.text "Violin") = .ok none ∧
      placed.channel (.text "Violin") = .error (.failed (.unassigned (.text "Violin")))) ∧
      Instrument.ofDatum? (.text "Percussion") = some .percussion ∧
      forInstruments [.text "Percussion"] = .error (.failed .percussionChannel) := by
  have spelt : Instrument.ofDatum? (.text "Violin") = some (.melodic 40) := by decide +kernel
  have misspelt : Datum.text "Violin" ≠ .text (Instrument.melodic 40).name := by
    rw [ne_eq, Datum.text.injEq]
    decide +kernel
  refine ⟨⟨⟨[(.melodic 40, 3)]⟩, ?_, find?_misspelt spelt misspelt _,
    channel_misspelt spelt misspelt _⟩, by decide +kernel, ?_⟩
  · apply eq_ok_of_toOption
    decide +kernel
  · rfl

end PatchMap

end MusicAlgebra
