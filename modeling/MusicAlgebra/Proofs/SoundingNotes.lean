import Mathlib.Data.List.Induction
import MusicAlgebra.Midi.Queue
import MusicAlgebra.Midi.Sounding

/-!
# What sounds after some messages

The notes that sound are a summary of the messages that were sent: as long as no note is released
more often than it was attacked, a note is counted once for every attack that was not yet followed
by a release.  The same summary says which releases it takes until nothing sounds.
-/

namespace MusicAlgebra

/-! ## Messages of a note -/

namespace Message

/-- Whether a message attacks, or releases, a note of a channel. -/
def does (action : NoteAction) (channel : Channel) (note : DataByte) : Message → Bool
  | programChange .. => false
  | noteOn c n _ => action = .attack ∧ c = channel ∧ n = note
  | noteOff c n _ => action = .release ∧ c = channel ∧ n = note

/-- How many of some messages attack, or release, a note of a channel. -/
def tally (action : NoteAction) (channel : Channel) (note : DataByte) (messages : List Message) :
    Nat :=
  messages.countP (does action channel note)

variable {action : NoteAction} {channel : Channel} {note : DataByte}

@[simp] theorem tally_append (first second : List Message) :
    tally action channel note (first ++ second) =
      tally action channel note first + tally action channel note second :=
  List.countP_append

theorem tally_singleton (m : Message) :
    tally action channel note [m] = if m.does action channel note then 1 else 0 := by
  simp [tally, List.countP_cons]

@[simp] theorem tally_programChanges (m : PatchMap) :
    tally action channel note m.programChanges = 0 := by
  apply List.countP_eq_zero.2
  intro message member
  obtain ⟨⟨instrument, c⟩, -, selected⟩ := List.mem_filterMap.1 member
  cases instrument with
  | percussion => cases selected
  | melodic program =>
      cases selected
      exact Bool.false_ne_true

theorem tally_le_of_isPrefix {before messages : List Message} (start : before <+: messages) :
    tally action channel note before ≤ tally action channel note messages :=
  start.sublist.countP_le

/-- In every prefix of the messages, no note is released more often than it is attacked. -/
def Balanced (messages : List Message) : Prop :=
  ∀ before, before <+: messages → ∀ channel note,
    tally .release channel note before ≤ tally .attack channel note before

theorem Balanced.of_isPrefix {before messages : List Message} (balanced : Balanced messages)
    (start : before <+: messages) : Balanced before :=
  fun first inside => balanced first (inside.trans start)

end Message

/-! ## Counting sounding notes -/

namespace Sounding

open Message

variable {s : Sounding} {channel : Channel} {note : DataByte}

/-- Every note is listed once, and only while it sounds. -/
structure WellFormed (s : Sounding) : Prop where
  distinct : (s.counts.map Prod.fst).Nodup
  positive : ∀ entry ∈ s.counts, 0 < entry.2

theorem wellFormed_silent : silent.WellFormed := ⟨List.nodup_nil, nofun⟩

theorem WellFormed.put (wellFormed : s.WellFormed) (key : Channel × DataByte) {count : Nat}
    (pos : 0 < count) : WellFormed ⟨Keyed.put key count s.counts⟩ := by
  constructor
  · exact Keyed.nodup_keys_put wellFormed.distinct key count
  · intro entry member
    rcases Keyed.mem_put member with rfl | member
    · exact pos
    · exact wellFormed.positive entry member

theorem WellFormed.after (wellFormed : s.WellFormed) (m : Message) : (s.after m).WellFormed := by
  cases m with
  | programChange c program => exact wellFormed
  | noteOn c n velocity => exact wellFormed.put (c, n) (Nat.succ_pos _)
  | noteOff c n velocity =>
      simp only [Sounding.after, Sounding.release]
      split
      · rename_i several
        exact wellFormed.put (c, n) (Nat.sub_pos_of_lt several)
      · constructor
        · exact Keyed.nodup_keys_erase wellFormed.distinct (c, n)
        · intro entry member
          exact wellFormed.positive entry (List.mem_filter.1 member).1

theorem WellFormed.eq_silent (wellFormed : s.WellFormed)
    (quiet : ∀ channel note, s.count channel note = 0) : s = silent := by
  obtain ⟨counts⟩ := s
  cases counts with
  | nil => rfl
  | cons entry others =>
      obtain ⟨⟨c, n⟩, count⟩ := entry
      have counted := quiet c n
      simp only [Sounding.count, Keyed.find?, if_true, Option.getD_some] at counted
      have positive := wellFormed.positive ⟨(c, n), count⟩ List.mem_cons_self
      exact absurd counted (Nat.ne_of_gt positive)

/-- One message changes the count of the note that it attacks or releases, and no other. -/
theorem count_after (s : Sounding) (m : Message) (channel : Channel) (note : DataByte) :
    (s.after m).count channel note =
      s.count channel note + tally .attack channel note [m] -
        tally .release channel note [m] := by
  cases m with
  | programChange c program => rfl
  | noteOn c n velocity =>
      by_cases same : (channel, note) = (c, n)
      · cases same
        simp [Sounding.after, tally_singleton, does]
      · have other : ¬(c = channel ∧ n = note) := by
          rintro ⟨rfl, rfl⟩
          exact same rfl
        simp [Sounding.after, tally_singleton, does, other, count_attack_of_ne s same]
  | noteOff c n velocity =>
      by_cases same : (channel, note) = (c, n)
      · cases same
        simp [Sounding.after, tally_singleton, does]
      · have other : ¬(c = channel ∧ n = note) := by
          rintro ⟨rfl, rfl⟩
          exact same rfl
        simp [Sounding.after, tally_singleton, does, other, count_release_of_ne s same]

/-- The notes that sound after some messages. -/
def afterAll (s : Sounding) (messages : List Message) : Sounding := messages.foldl after s

@[simp] theorem afterAll_concat (s : Sounding) (messages : List Message) (m : Message) :
    s.afterAll (messages ++ [m]) = (s.afterAll messages).after m := by
  simp [afterAll]

theorem WellFormed.afterAll (wellFormed : s.WellFormed) (messages : List Message) :
    (s.afterAll messages).WellFormed := by
  induction messages generalizing s with
  | nil => exact wellFormed
  | cons m messages ih => exact ih (wellFormed.after m)

/-- What sounds after balanced messages are the attacks that were not yet released. -/
theorem count_afterAll {messages : List Message} (balanced : Balanced messages) (channel : Channel)
    (note : DataByte) :
    (silent.afterAll messages).count channel note + tally .release channel note messages =
      tally .attack channel note messages := by
  induction messages using List.reverseRecOn with
  | nil => rfl
  | append_singleton messages m ih =>
      have counted := ih (balanced.of_isPrefix (List.prefix_append messages [m]))
      have released := balanced _ (List.prefix_refl _) channel note
      rw [tally_append, tally_append] at released
      rw [afterAll_concat, count_after, tally_append, tally_append]
      omega

/-! ## Silencing -/

/-- The messages that release every note as often as it was attacked. -/
def releases (s : Sounding) : List Message :=
  s.counts.flatMap fun ((channel, note), count) =>
    List.replicate count (Message.release channel note)

theorem exists_of_mem_releases {m : Message} (member : m ∈ s.releases) :
    ∃ channel note, m = Message.release channel note := by
  obtain ⟨⟨⟨c, n⟩, count⟩, -, repeated⟩ := List.mem_flatMap.1 member
  exact ⟨c, n, (List.mem_replicate.1 repeated).2⟩

theorem release_inj {c : Channel} {n : DataByte} :
    Message.release c n = Message.release channel note ↔ c = channel ∧ n = note := by
  simp [Message.release]

/-- There is one release for every attack that still sounds. -/
theorem WellFormed.count_releases (wellFormed : s.WellFormed) (channel : Channel)
    (note : DataByte) :
    s.releases.count (Message.release channel note) = s.count channel note := by
  obtain ⟨counts⟩ := s
  obtain ⟨distinct, -⟩ := wellFormed
  simp only [releases, Sounding.count]
  induction counts with
  | nil => rfl
  | cons entry others ih =>
      obtain ⟨⟨c, n⟩, count⟩ := entry
      obtain ⟨new, distinct⟩ := List.nodup_cons.1 distinct
      rw [List.flatMap_cons, List.count_append, ih distinct, List.count_replicate, Keyed.find?]
      by_cases same : (c, n) = (channel, note)
      · cases same
        rw [Keyed.find?_eq_none new]
        simp
      · have other : ¬(c = channel ∧ n = note) := by
          rintro ⟨rfl, rfl⟩
          exact same rfl
        simp [release_inj, other]

theorem tally_release_releases (s : Sounding) (channel : Channel) (note : DataByte) :
    tally .release channel note s.releases =
      s.releases.count (Message.release channel note) := by
  rw [tally, List.count]
  apply List.countP_congr
  intro m member
  obtain ⟨c, n, rfl⟩ := exists_of_mem_releases member
  simp [Message.release, does]

theorem tally_attack_releases (s : Sounding) (channel : Channel) (note : DataByte) :
    tally .attack channel note s.releases = 0 := by
  apply List.countP_eq_zero.2
  intro m member
  obtain ⟨c, n, rfl⟩ := exists_of_mem_releases member
  exact Bool.false_ne_true

end Sounding

end MusicAlgebra
