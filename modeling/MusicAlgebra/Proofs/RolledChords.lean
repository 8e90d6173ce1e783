import Mathlib.Data.List.Chain
import Mathlib.Data.List.FinRange
import MusicAlgebra.Proofs.ContainedEvents
import MusicAlgebra.Proofs.EventMaps
import MusicAlgebra.Proofs.InstantEvents

/-!
# Rolled chords

The notes of a chord may stand anywhere among the events of a phrase, several of them may have the
same pitch, and their slices may fall together with events of another chord.  A note is therefore
known by its position: this module says for every position what becomes of the event there, and
shows that a roll consists of just these, in order of onset.
-/

namespace MusicAlgebra

section Grouping

variable {α κ : Type} [BEq κ] [LawfulBEq κ] (key : α → κ) (items : List α)

/-- Of all items those are found that have one of the keys, if no key is asked for twice. -/
theorem flatMap_filter_perm_of_nodup {keys : List κ} (distinct : keys.Nodup) :
    (keys.flatMap fun k => items.filter fun item => key item == k).Perm
      (items.filter fun item => keys.contains (key item)) := by
  induction keys with
  | nil => simp
  | cons k keys ih =>
      obtain ⟨fresh, distinct⟩ := List.nodup_cons.1 distinct
      have parted := List.filter_append_perm (fun item => key item == k)
        (items.filter fun item => (k :: keys).contains (key item))
      have own : ((items.filter fun item => (k :: keys).contains (key item)).filter
          fun item => key item == k) = items.filter fun item => key item == k := by
        rw [List.filter_filter]
        apply List.filter_congr
        intro item _
        by_cases same : key item = k <;> simp [same]
      have others : ((items.filter fun item => (k :: keys).contains (key item)).filter
          fun item => !(key item == k)) = items.filter fun item => keys.contains (key item) := by
        rw [List.filter_filter]
        apply List.filter_congr
        intro item _
        by_cases same : key item = k <;> simp [same, fresh]
      rw [own, others] at parted
      exact ((ih distinct).append_left _).trans parted

/-- Grouping items by a key neither loses nor repeats any of them. -/
theorem flatMap_filter_perm :
    ((items.map key).eraseDups.flatMap fun k => items.filter fun item => key item == k).Perm
      items := by
  have all : (items.filter fun item => (items.map key).eraseDups.contains (key item)) = items := by
    apply List.filter_eq_self.2
    intro item member
    rw [List.contains_iff_mem, List.mem_eraseDups]
    exact List.mem_map_of_mem member
  have whole := flatMap_filter_perm_of_nodup key items (nodup_eraseDups (items.map key))
  rwa [all] at whole

end Grouping

/-- In a list without repetitions an item is known by its index, also after it has been changed. -/
theorem mapIdx_map_eq {α β γ : Type} [DecidableEq α] {items : List α} (distinct : items.Nodup)
    (change : α → β) (f : Nat → β → γ) :
    (items.map change).mapIdx f = items.map fun item => f (items.idxOf item) (change item) := by
  apply List.ext_getElem
  · simp
  · intro k _ _
    simp [distinct.idxOf_getElem]

namespace Event

variable {direction : Direction} {events chord : List Event} {key : Rat × Rat}
  {onset duration step : Rat}

/-- What a roll leaves to every note. -/
def voice (e : Event) : Int × Int × String := (e.pitch, e.volume, e.instrument)

/-- The positions of the notes that begin at a moment and last for a time. -/
def members (events : List Event) (key : Rat × Rat) : List (Fin events.length) :=
  (List.finRange events.length).filter fun i => events[i].chordKey == key

/-- Chords of two to eight notes are rolled. -/
def Rollable (events : List Event) (key : Rat × Rat) : Prop :=
  2 ≤ (members events key).length ∧ (members events key).length ≤ maxArpeggio

instance (events : List Event) (key : Rat × Rat) : Decidable (Rollable events key) :=
  inferInstanceAs (Decidable (_ ∧ _))

/-- Whether a pitch lies before another one in the direction of a roll. -/
def Direction.Before (direction : Direction) (first second : Int) : Prop :=
  match direction with
  | up => first < second
  | down => second < first

/-- Of two notes of a chord, the first one to sound; notes on one pitch sound as they are given. -/
def Direction.Leads (direction : Direction) (events : List Event) (i j : Fin events.length) :
    Prop :=
  direction.Before events[i].pitch events[j].pitch ∨ events[i].pitch = events[j].pitch ∧ i < j

/-- Consecutive slices of one length that fill a time. -/
structure EvenSlices (onset duration : Rat) (slices : List Event) : Prop where
  begins : ∀ first ∈ slices.head?, first.onset = onset
  follows : slices.IsChain fun former latter => latter.onset = former.finish
  ends : ∀ last ∈ slices.getLast?, last.finish = onset + duration
  even : ∀ slice ∈ slices, slice.duration = duration / slices.length

/-! ## Slices -/

theorem slices_eq_mapIdx (onset step : Rat) (chord : List Event) :
    slices onset step chord =
      chord.mapIdx fun k e => { e with onset := onset + k * step, duration := step } := by
  induction chord generalizing onset with
  | nil => rfl
  | cons e chord ih =>
      have later : ∀ k : Nat, onset + step + k * step = onset + (k + 1 : Nat) * step := by
        intro k
        push_cast
        ring
      rw [slices, ih, List.mapIdx_cons, Nat.cast_zero, zero_mul, add_zero]
      simp only [later]

theorem head?_slices (onset step : Rat) (chord : List Event) :
    ∀ first ∈ (slices onset step chord).head?, first.onset = onset := by
  cases chord with
  | nil => simp [slices]
  | cons e chord => simp [slices]

theorem isChain_slices (onset step : Rat) (chord : List Event) :
    (slices onset step chord).IsChain fun former latter => latter.onset = former.finish := by
  induction chord generalizing onset with
  | nil => exact .nil
  | cons e chord ih =>
      rw [slices, List.isChain_cons]
      exact ⟨head?_slices _ _ _, ih _⟩

theorem finish_of_getLast?_slices {last : Event}
    (ends : last ∈ (slices onset step chord).getLast?) :
    last.finish = onset + chord.length * step := by
  induction chord generalizing onset with
  | nil => cases ends
  | cons e chord ih =>
      cases chord with
      | nil =>
          rw [slices, slices, List.getLast?_singleton] at ends
          cases ends
          simp [finish]
      | cons next chord =>
          rw [slices, slices, List.getLast?_cons_cons, ← slices] at ends
          have number : ((e :: next :: chord).length : Rat) = (next :: chord).length + 1 := by
            rw [List.length_cons, Nat.cast_succ]
          rw [ih ends, number]
          ring

theorem evenSlices_slices (onset duration : Rat) (some : chord ≠ []) :
    EvenSlices onset duration (slices onset (duration / chord.length) chord) := by
  have many : (chord.length : Rat) ≠ 0 := Nat.cast_ne_zero.2 (List.length_pos_of_ne_nil some).ne'
  constructor
  · exact head?_slices _ _ _
  · exact isChain_slices _ _ _
  · intro last ends
    rw [finish_of_getLast?_slices ends, mul_div_cancel₀ _ many]
  · intro slice member
    rw [duration_of_mem_slices member, length_slices]

theorem inOrder_slices (lasts : 0 ≤ step) (onset : Rat) (chord : List Event) :
    InOrder (slices onset step chord) := by
  induction chord generalizing onset with
  | nil => exact .nil
  | cons e chord ih =>
      rw [slices, InOrder, List.pairwise_cons]
      refine ⟨?_, ih _⟩
      intro later member
      have inside := (slices_inside lasts (onset + step) chord later member).begins
      exact (le_add_of_nonneg_right lasts).trans inside

/-! ## Turns -/

theorem Direction.inOrder_iff {first second : Event} :
    direction.inOrder first second = true ↔
      direction.Before first.pitch second.pitch ∨ first.pitch = second.pitch := by
  cases direction with
  | up => rw [inOrder, Before, decide_eq_true_iff, le_iff_lt_or_eq]
  | down => rw [inOrder, Before, decide_eq_true_iff, le_iff_lt_or_eq, eq_comm (a := second.pitch)]

theorem Direction.inOrder_trans (first second third : Event)
    (leads : direction.inOrder first second = true)
    (follows : direction.inOrder second third = true) :
    direction.inOrder first third = true := by
  cases direction with
  | up =>
      rw [inOrder, decide_eq_true_iff] at leads follows ⊢
      exact leads.trans follows
  | down =>
      rw [inOrder, decide_eq_true_iff] at leads follows ⊢
      exact follows.trans leads

theorem Direction.inOrder_total (first second : Event) :
    (direction.inOrder first second || direction.inOrder second first) = true := by
  cases direction with
  | up => simpa [inOrder] using le_total first.pitch second.pitch
  | down => simpa [inOrder] using le_total second.pitch first.pitch

/-- The positions of a chord in the order in which its notes sound. -/
def turns (direction : Direction) (events : List Event) (key : Rat × Rat) :
    List (Fin events.length) :=
  if Rollable events key then
    (members events key).mergeSort fun i j => direction.inOrder events[i] events[j]
  else members events key

theorem turns_perm (direction : Direction) (events : List Event) (key : Rat × Rat) :
    (turns direction events key).Perm (members events key) := by
  rw [turns]
  split
  · exact List.mergeSort_perm _ _
  · exact .refl _

theorem members_increase (events : List Event) (key : Rat × Rat) :
    (members events key).Pairwise fun i j => i < j :=
  (List.pairwise_lt_finRange _).filter _

/-- Sorting a chord by pitch puts its notes in the direction of the roll; notes on one pitch stay
as they were, since sorting is stable. -/
theorem turns_lead (rollable : Rollable events key) :
    (turns direction events key).Pairwise (direction.Leads events) := by
  rw [turns, if_pos rollable, List.pairwise_iff_forall_sublist]
  intro i j listed
  have sorted : ((members events key).mergeSort fun i j =>
      direction.inOrder events[i] events[j]).Pairwise fun i j =>
        direction.inOrder events[i] events[j] := by
    apply List.pairwise_mergeSort
    · exact fun i j k => Direction.inOrder_trans events[i] events[j] events[k]
    · exact fun i j => Direction.inOrder_total events[i] events[j]
  have ordered := List.pairwise_iff_forall_sublist.1 sorted listed
  rcases Direction.inOrder_iff.1 ordered with before | same
  · exact .inl before
  · refine .inr ⟨same, ?_⟩
    have tied := listed.filter fun k => events[k].pitch == events[j].pitch
    rw [filter_mergeSort] at tied
    · simp only [List.filter_cons, same, beq_self_eq_true, if_true, List.filter_nil] at tied
      exact List.pairwise_iff_forall_sublist.1 ((members_increase events key).filter _) tied
    · exact fun _ _ _ => Direction.inOrder_trans _ _ _
    · exact fun _ _ => Direction.inOrder_total _ _
    · intro k l here there
      rw [beq_iff_eq] at here there
      exact Direction.inOrder_iff.2 (.inr (here.trans there.symm))

/-! ## Single chords -/

theorem rollChord_of_several (several : 2 ≤ chord.length) (few : chord.length ≤ maxArpeggio)
    (together : ∀ e ∈ chord, e.chordKey = (onset, duration)) :
    rollChord direction chord =
      slices onset (duration / chord.length) (chord.mergeSort direction.inOrder) := by
  match chord with
  | first :: second :: others =>
      obtain ⟨starts, lasts⟩ := Prod.mk.inj (together first List.mem_cons_self)
      rw [rollChord, if_pos few, starts, lasts]

theorem rollChord_of_not (kept : ¬ (2 ≤ chord.length ∧ chord.length ≤ maxArpeggio)) :
    rollChord direction chord = chord := by
  match chord with
  | [] => rfl
  | [e] => rfl
  | first :: second :: others =>
      have several : 2 ≤ (first :: second :: others).length := Nat.le_add_left 2 _
      rw [rollChord, if_neg fun few => kept ⟨several, few⟩]

/-! ## What becomes of a note -/

/-- The event that stands for the one at a position: a slice in its turn if its chord is rolled, and
itself otherwise. -/
def rolled (direction : Direction) (events : List Event) (i : Fin events.length) : Event :=
  if Rollable events events[i].chordKey then
    let step := events[i].duration / (members events events[i].chordKey).length
    let turn := (turns direction events events[i].chordKey).idxOf i
    { events[i] with onset := events[i].onset + turn * step, duration := step }
  else events[i]

theorem voice_rolled (direction : Direction) (events : List Event) (i : Fin events.length) :
    (rolled direction events i).voice = events[i].voice := by
  rw [rolled]
  split <;> rfl

theorem rolled_of_not_rollable {i : Fin events.length}
    (alone : ¬ Rollable events events[i].chordKey) : rolled direction events i = events[i] :=
  if_neg alone

theorem chordKey_of_mem_members {i : Fin events.length} (member : i ∈ members events key) :
    events[i].chordKey = key :=
  beq_iff_eq.1 (List.mem_filter.1 member).2

/-- A chord, note by note. -/
theorem filter_chordKey (events : List Event) (key : Rat × Rat) :
    events.filter (·.chordKey == key) = (members events key).map fun i => events[i] := by
  have all : (List.finRange events.length).map (fun i => events[i]) = events :=
    List.map_getElem_finRange events
  conv_lhs => rw [← all]
  rw [List.filter_map, members]
  rfl

theorem map_turns (rollable : Rollable events key) :
    (turns direction events key).map (fun i => events[i]) =
      (events.filter (·.chordKey == key)).mergeSort direction.inOrder := by
  rw [turns, if_pos rollable, filter_chordKey]
  exact List.map_mergeSort fun _ _ _ _ => rfl

theorem nodup_turns (direction : Direction) (events : List Event) (key : Rat × Rat) :
    (turns direction events key).Nodup :=
  (turns_perm direction events key).nodup_iff.2 ((members_increase events key).imp fun lt => lt.ne)

/-- The notes of a chord in turn are its slices. -/
theorem map_rolled_turns (rollable : Rollable events (onset, duration)) :
    (turns direction events (onset, duration)).map (rolled direction events) =
      slices onset (duration / (members events (onset, duration)).length)
        ((events.filter (·.chordKey == (onset, duration))).mergeSort direction.inOrder) := by
  rw [← map_turns rollable, slices_eq_mapIdx, mapIdx_map_eq (nodup_turns direction events _)]
  apply List.map_congr_left
  intro i member
  have own := chordKey_of_mem_members ((turns_perm direction events _).mem_iff.1 member)
  obtain ⟨starts, lasts⟩ := Prod.mk.inj own
  rw [rolled, own, if_pos rollable, starts, lasts]

/-- Every chord is rolled note by note. -/
theorem rollChord_eq (direction : Direction) (events : List Event) (key : Rat × Rat) :
    rollChord direction (events.filter (·.chordKey == key)) =
      (turns direction events key).map (rolled direction events) := by
  have number : (events.filter (·.chordKey == key)).length = (members events key).length := by
    rw [filter_chordKey, List.length_map]
  by_cases rollable : Rollable events key
  · have together : ∀ e ∈ events.filter (·.chordKey == key), e.chordKey = key := by
      intro e member
      exact beq_iff_eq.1 (List.mem_filter.1 member).2
    rw [map_rolled_turns rollable, ← number]
    rw [Rollable, ← number] at rollable
    exact rollChord_of_several rollable.1 rollable.2 together
  · have kept : (turns direction events key).map (rolled direction events) =
        events.filter (·.chordKey == key) := by
      rw [turns, if_neg rollable, filter_chordKey]
      apply List.map_congr_left
      intro i member
      apply rolled_of_not_rollable
      rwa [chordKey_of_mem_members member]
    rw [kept, rollChord_of_not]
    rwa [Rollable, ← number] at rollable

theorem arpeggio_eq (direction : Direction) (events : List Event) :
    arpeggio direction events =
      sort (((events.map chordKey).eraseDups.flatMap (turns direction events)).map
        (rolled direction events)) := by
  rw [arpeggio, chords, List.flatMap_map, List.map_flatMap]
  simp only [rollChord_eq]

/-- Every position has its turn in one chord. -/
theorem flatMap_turns_perm (direction : Direction) (events : List Event) :
    ((events.map chordKey).eraseDups.flatMap (turns direction events)).Perm
      (List.finRange events.length) := by
  have keys : (List.finRange events.length).map (fun i => events[i].chordKey) =
      events.map chordKey := by
    conv_rhs => rw [← List.map_getElem_finRange events, List.map_map]
    rfl
  have grouped := flatMap_filter_perm (fun i => events[i].chordKey) (List.finRange events.length)
  rw [keys] at grouped
  exact (List.Perm.flatMap_left _ fun key _ => turns_perm direction events key).trans grouped

theorem arpeggio_perm (direction : Direction) (events : List Event) :
    (arpeggio direction events).Perm (List.ofFn (rolled direction events)) := by
  rw [arpeggio_eq, List.ofFn_eq_map]
  exact (List.mergeSort_perm _ _).trans ((flatMap_turns_perm direction events).map _)

/-- The slices of a chord, being in order, stay so when all events are brought into order. -/
theorem rolled_turns_sublist (lasts : ∀ e ∈ events, 0 ≤ e.duration)
    (rollable : Rollable events (onset, duration)) :
    ((turns direction events (onset, duration)).map (rolled direction events)).Sublist
      (arpeggio direction events) := by
  obtain ⟨i, member⟩ := List.exists_mem_of_length_pos (Nat.zero_lt_two.trans_le rollable.1)
  have own := chordKey_of_mem_members member
  have listed : events[i] ∈ events := List.getElem_mem i.isLt
  have nonneg : 0 ≤ duration := (Prod.mk.inj own).2 ▸ lasts events[i] listed
  have order : InOrder ((turns direction events (onset, duration)).map
      (rolled direction events)) := by
    rw [map_rolled_turns rollable]
    exact inOrder_slices (div_nonneg nonneg (Nat.cast_nonneg _)) _ _
  have present : (onset, duration) ∈ (events.map chordKey).eraseDups := by
    rw [List.mem_eraseDups, ← own]
    exact List.mem_map_of_mem listed
  rw [arpeggio_eq, List.map_flatMap]
  apply List.sublist_mergeSort noLater_trans noLater_total (inOrder_iff.1 order)
  exact List.sublist_flatten_of_mem (List.mem_map_of_mem present)

theorem evenSlices_turns (rollable : Rollable events (onset, duration)) :
    EvenSlices onset duration
      ((turns direction events (onset, duration)).map (rolled direction events)) := by
  have number : (members events (onset, duration)).length =
      ((events.filter (·.chordKey == (onset, duration))).mergeSort direction.inOrder).length := by
    rw [List.length_mergeSort, filter_chordKey, List.length_map]
  rw [map_rolled_turns rollable, number]
  apply evenSlices_slices
  apply List.ne_nil_of_length_pos
  rw [← number]
  exact Nat.zero_lt_two.trans_le rollable.1

/-- A roll of some events is put together from what becomes of each of them, in order.  Every note
keeps its pitch, its volume and its instrument.  The notes that begin and end together, wherever
they stand, sound one after the other in slices of one length which fill their time, in the
direction of the roll and, on one pitch, as they were given.  Single notes and clusters of more than
eight are left as they are. -/
theorem arpeggio_rolls (direction : Direction) (lasts : ∀ e ∈ events, 0 ≤ e.duration) :
    InOrder (arpeggio direction events) ∧
      ((arpeggio direction events).map voice).Perm (events.map voice) ∧
      ∃ stands : Fin events.length → Event,
        (arpeggio direction events).Perm (List.ofFn stands) ∧
        (∀ i, (stands i).voice = events[i].voice) ∧
        (∀ i, ¬ Rollable events events[i].chordKey → stands i = events[i]) ∧
        ∀ onset duration, Rollable events (onset, duration) →
          ∃ turns : List (Fin events.length),
            turns.Perm (members events (onset, duration)) ∧
              turns.Pairwise (direction.Leads events) ∧
              EvenSlices onset duration (turns.map stands) ∧
              (turns.map stands).Sublist (arpeggio direction events) := by
  have whole := arpeggio_perm direction events
  refine ⟨inOrder_sort _, ?_, rolled direction events, whole, voice_rolled direction events,
    fun i => rolled_of_not_rollable, ?_⟩
  · have voices : (List.ofFn (rolled direction events)).map voice = events.map voice := by
      conv_rhs => rw [← List.map_getElem_finRange events, List.map_map]
      rw [List.ofFn_eq_map, List.map_map]
      exact List.map_congr_left fun i _ => voice_rolled direction events i
    rw [← voices]
    exact whole.map voice
  · intro onset duration rollable
    exact ⟨turns direction events (onset, duration), turns_perm direction events _,
      turns_lead rollable, evenSlices_turns rollable, rolled_turns_sublist lasts rollable⟩

/-- Two chords that interleave, the first one with two notes on one pitch, and a note alone. -/
def scatteredChords : List Event :=
  [⟨0, 1, 67, 100, "violin"⟩, ⟨1 / 2, 1 / 2, 60, 80, "flute"⟩, ⟨0, 1, 60, 90, "violin"⟩,
    ⟨2, 1, 72, 100, "violin"⟩, ⟨1 / 2, 1 / 2, 55, 80, "flute"⟩, ⟨0, 1, 60, 50, "cello"⟩]

theorem scatteredChords_rolled :
    (∀ e ∈ scatteredChords, 0 ≤ e.duration) ∧ Rollable scatteredChords (0, 1) ∧
      ¬ Rollable scatteredChords (2, 1) ∧ InOrder (arpeggio .down scatteredChords) ∧
      ∃ stands : Fin scatteredChords.length → Event,
        (arpeggio .down scatteredChords).Perm (List.ofFn stands) ∧
        stands ⟨3, by decide⟩ = ⟨2, 1, 72, 100, "violin"⟩ ∧
        ∃ turns : List (Fin scatteredChords.length), (turns.map Fin.val).Perm [0, 2, 5] ∧
          turns.Pairwise (Direction.down.Leads scatteredChords) ∧
          EvenSlices 0 1 (turns.map stands) ∧
          (turns.map stands).Sublist (arpeggio .down scatteredChords) := by
  have lasts : ∀ e ∈ scatteredChords, 0 ≤ e.duration := by decide +kernel
  have rollable : Rollable scatteredChords (0, 1) := by decide +kernel
  have alone : ¬ Rollable scatteredChords (2, 1) := by decide +kernel
  have positions : (members scatteredChords (0, 1)).map Fin.val = [0, 2, 5] := by decide +kernel
  obtain ⟨order, -, stands, whole, -, kept, rolls⟩ := arpeggio_rolls .down lasts
  obtain ⟨turns, same, rolled⟩ := rolls 0 1 rollable
  have listed := same.map Fin.val
  rw [positions] at listed
  exact ⟨lasts, rollable, alone, order, stands, whole, kept ⟨3, by decide⟩ alone, turns, listed,
    rolled⟩

end Event

end MusicAlgebra
