import MusicAlgebra.Proofs.SilentEvents

/-!
# Histories of assignments

A patch map is changed by attempts to put an instrument on a channel, under any spelling of its name
and on any number.  An attempt succeeds if the name is known, the number is that of a channel, the
drum kit and its channel come together, and no other instrument holds the channel; it then adds the
instrument or moves it, and in both cases the map stays proper.  Otherwise it fails for the first of
these four reasons, of which it tells as far as its number can be written, and leaves the map as it
was.  So every map that comes about is proper, whatever was attempted, and selects each of its
melodic programs once.
-/

namespace MusicAlgebra

open Outcome

/-- Values stay different when a key takes one that no other key has. -/
theorem Keyed.nodup_values_put {κ ν : Type} [DecidableEq κ] {key : κ} {value : ν}
    {entries : List (κ × ν)} (keys : (entries.map Prod.fst).Nodup)
    (values : (entries.map Prod.snd).Nodup)
    (free : ∀ entry ∈ entries, entry.2 = value → entry.1 = key) :
    ((put key value entries).map Prod.snd).Nodup := by
  induction entries with
  | nil => exact List.pairwise_singleton _ value
  | cons first rest ih =>
      obtain ⟨other, old⟩ := first
      obtain ⟨absent, keys⟩ := List.nodup_cons.1 keys
      obtain ⟨unused, values⟩ := List.nodup_cons.1 values
      obtain ⟨firstFree, free⟩ := List.forall_mem_cons.1 free
      unfold put
      split
      · rename_i same
        subst same
        refine List.nodup_cons.2 ⟨?_, values⟩
        intro taken
        obtain ⟨entry, member, held⟩ := List.mem_map.1 taken
        exact absent (List.mem_map.2 ⟨entry, member, free entry member held⟩)
      · rename_i different
        refine List.nodup_cons.2 ⟨?_, ih keys values free⟩
        intro taken
        obtain ⟨entry, member, held⟩ := List.mem_map.1 taken
        rcases mem_put member with rfl | member
        · exact different (firstFree held.symm)
        · exact unused (List.mem_map.2 ⟨entry, member, held⟩)

namespace PatchMap

/-- An attempt to put an instrument, under some spelling of its name, on a channel. -/
structure Attempt where
  given : Datum
  channel : Int

/-- Whether every integer in an attempt can be written. -/
def Attempt.isWritable [Limits] (attempt : Attempt) : Bool :=
  attempt.given.isWritable && Number.isWritable attempt.channel

theorem Attempt.isWritable_of_unlimited [Limits] (unlimited : Limits.mostDigits = none)
    (attempt : Attempt) : attempt.isWritable = true := by
  rw [isWritable, Datum.isWritable_of_unlimited unlimited, Number.isWritable_of_unlimited unlimited]
  rfl

variable {m placed start : PatchMap} {i other : Instrument} {channel : Channel} {attempt : Attempt}
variable {given : Datum} {number : Int} {cause : RenderFailure} {halt : Halt}

/-! ## One attempt -/

/-- The map with an instrument on a channel, where it was before or at the end. -/
def put (m : PatchMap) (i : Instrument) (channel : Channel) : PatchMap :=
  ⟨Keyed.put i channel m.assignments⟩

/-- A channel is for instruments of its kind, and no other one holds it. -/
structure Admits (m : PatchMap) (i : Instrument) (channel : Channel) : Prop where
  drums : i = .percussion ↔ channel = Instrument.percussionChannel
  free : ∀ entry ∈ m.assignments, entry.2 = channel → entry.1 = i

/-- The four reasons for which an attempt fails, each for want of the ones before it. -/
inductive Refuses (m : PatchMap) (attempt : Attempt) : RenderFailure → Prop where
  | unknown : Instrument.ofDatum? attempt.given = none →
      Refuses m attempt (.unknownInstrument attempt.given)
  | outOfRange {i : Instrument} : Instrument.ofDatum? attempt.given = some i →
      ¬ (0 ≤ attempt.channel ∧ attempt.channel ≤ 15) →
      Refuses m attempt (.channelOutOfRange attempt.channel)
  | misplaced {i : Instrument} {channel : Channel} :
      Instrument.ofDatum? attempt.given = some i → attempt.channel = channel.val →
      ¬ (i = .percussion ↔ channel = Instrument.percussionChannel) →
      Refuses m attempt .percussionChannel
  | taken {i other : Instrument} {channel : Channel} :
      Instrument.ofDatum? attempt.given = some i → attempt.channel = channel.val →
      (i = .percussion ↔ channel = Instrument.percussionChannel) →
      (other, channel) ∈ m.assignments → other ≠ i →
      Refuses m attempt (.channelTaken channel other)

theorem assign_known [Limits] (known : Instrument.ofDatum? given = some i) (m : PatchMap)
    (channel : Channel) : m.assign given channel.val = m.place i channel := by
  have inRange : 0 ≤ (channel.val : Int) ∧ (channel.val : Int) < 16 := by omega
  simp only [assign, known, dif_pos inRange]
  rfl

theorem exists_channel (inRange : 0 ≤ number ∧ number ≤ 15) :
    ∃ channel : Channel, number = channel.val :=
  ⟨⟨number.toNat, by omega⟩, (Int.toNat_of_nonneg inRange.1).symm⟩

theorem rival?_eq_none :
    m.rival? i channel = none ↔ ∀ entry ∈ m.assignments, entry.2 = channel → entry.1 = i := by
  simp only [rival?, Option.map_eq_none_iff, List.find?_eq_none, decide_eq_true_eq, not_and, ne_eq,
    not_not]

theorem mem_of_rival? (rival : m.rival? i channel = some other) :
    (other, channel) ∈ m.assignments ∧ other ≠ i := by
  rw [rival?, Option.map_eq_some_iff] at rival
  obtain ⟨⟨_, there⟩, found, rfl⟩ := rival
  have matched := List.find?_some found
  obtain ⟨rfl, different⟩ := of_decide_eq_true matched
  exact ⟨List.mem_of_find?_eq_some found, different⟩

theorem place_of_admits (admits : m.Admits i channel) :
    m.place i channel = .ok (m.put i channel) := by
  rw [place, if_pos admits.drums, rival?_eq_none.2 admits.free]
  rfl

/-- An attempt is refused for one of the four reasons, or puts the instrument on the channel. -/
theorem refuses_or_admits [Limits] (m : PatchMap) (attempt : Attempt) :
    (∃ cause, m.Refuses attempt cause ∧
        m.assign attempt.given attempt.channel = .error (.told cause)) ∨
      ∃ i channel, Instrument.ofDatum? attempt.given = some i ∧ attempt.channel = channel.val ∧
        m.Admits i channel ∧ m.assign attempt.given attempt.channel = .ok (m.put i channel) := by
  cases known : Instrument.ofDatum? attempt.given with
  | none => exact .inl ⟨_, .unknown known, by rw [assign, known]⟩
  | some i =>
      by_cases inRange : 0 ≤ attempt.channel ∧ attempt.channel ≤ 15
      · obtain ⟨channel, number⟩ := exists_channel inRange
        rw [number, assign_known known]
        by_cases drums : i = .percussion ↔ channel = Instrument.percussionChannel
        · cases rival : m.rival? i channel with
          | some other =>
              obtain ⟨member, different⟩ := mem_of_rival? rival
              exact .inl ⟨_, .taken known number drums member different,
                by rw [place, if_pos drums, rival]; rfl⟩
          | none =>
              have admits : m.Admits i channel := ⟨drums, rival?_eq_none.1 rival⟩
              exact .inr ⟨i, channel, rfl, rfl, admits, place_of_admits admits⟩
        · exact .inl ⟨_, .misplaced known number drums, by rw [place, if_neg drums]; rfl⟩
      · have outside : ¬ (0 ≤ attempt.channel ∧ attempt.channel < 16) := by omega
        exact .inl ⟨_, .outOfRange known inRange, by simp only [assign, known, dif_neg outside]⟩

/-- What can be written is told. -/
theorem Refuses.told_eq [Limits] (refuses : m.Refuses attempt cause)
    (writable : attempt.isWritable = true) : Halt.told cause = .failed cause := by
  obtain ⟨given, channel⟩ := Bool.and_eq_true_iff.1 writable
  cases refuses with
  | unknown => exact if_pos given
  | outOfRange => exact if_pos channel
  | misplaced | taken => rfl

/-- What a successful attempt has done. -/
theorem exists_put_of_assign [Limits] (assigned : m.assign given number = .ok placed) :
    ∃ i channel, Instrument.ofDatum? given = some i ∧ number = channel.val ∧
      m.Admits i channel ∧ placed = m.put i channel := by
  rcases m.refuses_or_admits ⟨given, number⟩ with
    ⟨_, _, failed⟩ | ⟨i, channel, known, there, admits, succeeded⟩
  · cases assigned.symm.trans failed
  · exact ⟨i, channel, known, there, admits, Except.ok.inj (assigned.symm.trans succeeded)⟩

/-! ## Proper maps -/

theorem Proper.put (proper : m.Proper) (admits : m.Admits i channel) :
    (m.put i channel).Proper where
  instruments := Keyed.nodup_keys_put proper.instruments i channel
  channels := Keyed.nodup_values_put proper.instruments proper.channels admits.free
  drums entry member := by
    rcases Keyed.mem_put member with rfl | member
    · exact admits.drums
    · exact proper.drums entry member

theorem Proper.assign [Limits] (proper : m.Proper) (assigned : m.assign given number = .ok placed) :
    placed.Proper := by
  obtain ⟨i, channel, -, -, admits, rfl⟩ := exists_put_of_assign assigned
  exact proper.put admits

/-- A run of automatic assignments passes over its first name or assigns it: the drum kit to its
own channel, anything else to the first free one. -/
theorem assignAll_cons_eq_ok [Limits] {name : Datum} {names : List Datum} {free : List Channel}
    (run : m.assignAll free (name :: names) = .ok placed) :
    (∃ held, m.find? name = .ok (some held)) ∧ m.assignAll free names = .ok placed ∨
      m.find? name = .ok none ∧ ∃ channel rest next,
        ((name == .text Instrument.percussion.name) = true ∧
            channel = Instrument.percussionChannel ∧ rest = free ∨
          (name == .text Instrument.percussion.name) = false ∧ free = channel :: rest) ∧
        m.assign name channel.val = .ok next ∧ next.assignAll rest names = .ok placed := by
  rw [assignAll.eq_def] at run
  obtain ⟨held, found, run⟩ := bind_eq_ok.1 run
  cases held with
  | some channel => exact .inl ⟨⟨channel, found⟩, run⟩
  | none =>
      dsimp only at run
      split at run
      · rename_i named
        obtain ⟨next, assigned, run⟩ := bind_eq_ok.1 run
        exact .inr ⟨found, _, free, next, .inl ⟨named, rfl, rfl⟩, assigned, run⟩
      · rename_i other
        cases free with
        | nil => cases run
        | cons channel free =>
            obtain ⟨next, assigned, run⟩ := bind_eq_ok.1 run
            exact .inr ⟨found, channel, free, next, .inr ⟨Bool.eq_false_of_not_eq_true other, rfl⟩,
              assigned, run⟩

/-- What every successful assignment keeps, a run of automatic assignments keeps. -/
theorem assignAll_invariant [Limits] {invariant : PatchMap → Prop}
    (keeps : ∀ before given number after, invariant before →
      before.assign given number = .ok after → invariant after)
    {free : List Channel} {names : List Datum} (started : invariant m)
    (run : m.assignAll free names = .ok placed) : invariant placed := by
  induction names generalizing m free with
  | nil =>
      cases run
      exact started
  | cons name names ih =>
      obtain ⟨-, run⟩ | ⟨-, _, _, next, -, assigned, run⟩ := assignAll_cons_eq_ok run
      · exact ih started run
      · exact ih (keeps _ _ _ _ started assigned) run

/-- The maps that there are before anything is attempted: the empty one, those that are given with
all their entries, and those that are made for a list of instruments. -/
inductive Founded [Limits] : PatchMap → Prop where
  | empty : Founded PatchMap.empty
  | ofEntries {given : PatchMap} {entries : List (Datum × Int)} :
      PatchMap.ofEntries entries = .ok given → Founded given
  | forInstruments {made : PatchMap} {names : List Datum} :
      PatchMap.forInstruments names = .ok made → Founded made

theorem Founded.proper [Limits] (founded : m.Founded) : m.Proper := by
  have keeps : ∀ before given number after, Proper before →
      PatchMap.assign before given number = .ok after → Proper after :=
    fun _ _ _ _ proper assigned => proper.assign assigned
  cases founded with
  | empty => exact proper_empty
  | ofEntries given =>
      unfold PatchMap.ofEntries at given
      split at given
      · cases given
      · exact foldlM_invariant (fun before (item : Datum × Int) => keeps before item.1 item.2)
          proper_empty given
  | forInstruments made => exact assignAll_invariant keeps proper_empty made

/-! ## Many attempts -/

/-- The map after an attempt. -/
def after [Limits] (m : PatchMap) (attempt : Attempt) : PatchMap :=
  match m.assign attempt.given attempt.channel with
  | .ok placed => placed
  | .error _ => m

/-- The map after one attempt after the other. -/
def afterAll [Limits] (m : PatchMap) (attempts : List Attempt) : PatchMap :=
  attempts.foldl after m

theorem after_of_error [Limits] (failed : m.assign attempt.given attempt.channel = .error halt) :
    m.after attempt = m := by
  rw [after, failed]

theorem after_of_ok [Limits] (assigned : m.assign attempt.given attempt.channel = .ok placed) :
    m.after attempt = placed := by
  rw [after, assigned]

theorem Proper.after [Limits] (proper : m.Proper) (attempt : Attempt) :
    (m.after attempt).Proper := by
  cases outcome : m.assign attempt.given attempt.channel with
  | error halt =>
      rw [after_of_error outcome]
      exact proper
  | ok placed =>
      rw [after_of_ok outcome]
      exact proper.assign outcome

theorem Proper.afterAll [Limits] (proper : m.Proper) (attempts : List Attempt) :
    (m.afterAll attempts).Proper := by
  induction attempts generalizing m with
  | nil => exact proper
  | cons attempt attempts ih => exact ih (proper.after attempt)

/-! ## Selecting programs -/

/-- The viola gets the channel of the violin once that has moved.  All the other attempts fail. -/
def moves : List Attempt :=
  [⟨.text "viola", 3⟩, ⟨.int 40, 5⟩, ⟨.text " VIOLA ", 3⟩, ⟨.text "oboe", 9⟩,
    ⟨.text "Percussion", 4⟩, ⟨.text "flute", 16⟩, ⟨.text "kazoo", 0⟩]

open Usual

end PatchMap

end MusicAlgebra
