import MusicAlgebra.Keyed
import MusicAlgebra.Midi.Message

/-!
# Sounding notes

A renderer counts, for every channel and note, how often the note has been attacked and not yet
released.  Notes whose count is zero are not listed.
-/

namespace MusicAlgebra

/-- The notes that sound, with how often each was attacked, in the order of their first attack. -/
structure Sounding where
  counts : List ((Channel × DataByte) × Nat) := []
  deriving DecidableEq, Repr

namespace Sounding

def silent : Sounding := {}

/-- How often a note of a channel has been attacked and not yet released. -/
def count (s : Sounding) (channel : Channel) (note : DataByte) : Nat :=
  (Keyed.find? (channel, note) s.counts).getD 0

def attack (s : Sounding) (channel : Channel) (note : DataByte) : Sounding :=
  ⟨Keyed.put (channel, note) (s.count channel note + 1) s.counts⟩

def release (s : Sounding) (channel : Channel) (note : DataByte) : Sounding :=
  if 1 < s.count channel note then
    ⟨Keyed.put (channel, note) (s.count channel note - 1) s.counts⟩
  else ⟨Keyed.erase (channel, note) s.counts⟩

/-- The notes that sound after a message. -/
def after (s : Sounding) : Message → Sounding
  | .programChange .. => s
  | .noteOn channel note _ => s.attack channel note
  | .noteOff channel note _ => s.release channel note

/-- How many releases it takes until nothing sounds. -/
def total (s : Sounding) : Nat := s.counts.foldl (fun sum entry => sum + entry.2) 0

/-- The notes that sound and their counts, by channel and then by note. -/
def ordered (s : Sounding) : List ((Channel × DataByte) × Nat) :=
  let place (entry : (Channel × DataByte) × Nat) := entry.1.1.val * 128 + entry.1.2.val
  s.counts.mergeSort fun a b => place a ≤ place b

@[simp] theorem count_silent (channel : Channel) (note : DataByte) :
    silent.count channel note = 0 := rfl

@[simp] theorem count_attack_self (s : Sounding) (channel : Channel) (note : DataByte) :
    (s.attack channel note).count channel note = s.count channel note + 1 := by
  simp [attack, count]

theorem count_attack_of_ne (s : Sounding) {channel other : Channel} {note kept : DataByte}
    (different : (other, kept) ≠ (channel, note)) :
    (s.attack channel note).count other kept = s.count other kept := by
  simp [attack, count, Keyed.find?_put_of_ne different]

@[simp] theorem count_release_self (s : Sounding) (channel : Channel) (note : DataByte) :
    (s.release channel note).count channel note = s.count channel note - 1 := by
  unfold release
  by_cases several : 1 < s.count channel note
  · rw [if_pos several]
    simp [count]
  · rw [if_neg several]
    have : (⟨Keyed.erase (channel, note) s.counts⟩ : Sounding).count channel note = 0 := by
      simp [count]
    omega

theorem count_release_of_ne (s : Sounding) {channel other : Channel} {note kept : DataByte}
    (different : (other, kept) ≠ (channel, note)) :
    (s.release channel note).count other kept = s.count other kept := by
  unfold release
  split
  · simp [count, Keyed.find?_put_of_ne different]
  · simp [count, Keyed.find?_erase_of_ne different]

end Sounding

end MusicAlgebra
