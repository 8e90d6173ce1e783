import MusicAlgebra.Midi.Rehearsal
import MusicAlgebra.Proofs.NoHangingNotes

/-!
# Releases that are lost

When the streaming has ended, whatever ended it, the releases of the notes that still sound are
tried one after the other.  The first of them that does not arrive is the last that is tried, so a
note whose turn had not yet come then gets no release at all.
-/

namespace MusicAlgebra

open Happening Message

namespace Stage

variable {σ : Type} {stage : Stage (StateM σ)} {r : Renderer} {p : Performance}
variable {patchMap : PatchMap} {queue : List Scheduled}

/-- Whichever messages are lost on a stage, when the streaming has ended there are the releases of
all the notes that sound, each as often as it sounds.  Either all of them are sent and arrive, and
nothing sounds any more; or those before the first that is lost arrive and those after it are never
sent.  A rendering whose rate cannot be told sends nothing, and nothing sounds. -/
theorem render_releases_until_lost [Limits] (unbroken : stage.Unbroken)
    (free : r.state ≠ .streaming)
    (prepared : p.prepare r.patchMap = .ok (patchMap, queue)) (s : σ) :
    let rendered := (stage.recorded.render r p).run (s, [])
    (r.beatRate.isWritable = false → rendered.2.2 = [] ∧ rendered.1.2.sounding = .silent) ∧
      (r.beatRate.isWritable = true →
        ∃ ending last w releases, stage.recorded.Streamed r patchMap queue (s, []) ending last w ∧
          (∀ m ∈ releases, ∃ channel note, m = .release channel note) ∧
          (∀ channel note, tally .attack channel note (delivered w.2) =
            tally .release channel note (delivered w.2) +
              releases.count (.release channel note)) ∧
          (rendered.2.2 = w.2 ++ arrivals releases ∧ rendered.1.2.sounding = .silent ∨
            ∃ before lost after reason, releases = before ++ lost :: after ∧
              rendered.2.2 = w.2 ++ (arrivals before ++ [.sent lost (.failed reason)]))) := by
  intro rendered
  constructor
  · intro untold
    have ended : rendered = ((.error .unwritable, r.streaming .silent), s, []) :=
      congrFun (stage.recorded.render_untold free prepared untold) (s, [])
    rw [ended]
    exact ⟨rfl, rfl⟩
  · intro tellable
    obtain ⟨placed, queued⟩ := Performance.exists_queued_of_prepare prepared
    obtain ⟨ending, last, w, released, streamed, concluded, recorded, shown⟩ :=
      stage.exists_course free prepared tellable s
    obtain ⟨delivery, attempted, silenced⟩ :=
      streamed.attempted queued (unbroken.ending_ne_brokenOff streamed) concluded
    refine ⟨ending, last, w, last.sounding.releases, streamed,
      fun m => Sounding.exists_of_mem_releases, ?_, ?_⟩
    · obtain ⟨before, sent, account, rfl⟩ := streamed.exists_account
      exact account.tally_eq queued
    · cases attempted with
      | all => exact .inl ⟨recorded, silenced rfl⟩
      | @lost before lost after delivery split missed =>
          have whole : delivery ≠ .brokenOff :=
            unbroken.ne_brokenOff (shown _ List.mem_concat_self)
          cases delivery with
          | sent => exact absurd rfl missed
          | brokenOff => exact absurd rfl whole
          | failed reason => exact .inr ⟨before, lost, after, reason, split, recorded⟩

end Stage

/-! ## A lost release -/

/-- Two notes at once. -/
def majorThird : Performance :=
  ⟨[⟨0, 1, 60, 100, "acoustic_grand_piano"⟩, ⟨0, 1, 64, 100, "acoustic_grand_piano"⟩], 1⟩

def majorThirdQueue : List Scheduled :=
  [⟨0, .attack, 0, pianoChannel, 60, 100⟩, ⟨0, .attack, 1, pianoChannel, 64, 100⟩,
    ⟨1, .release, 0, pianoChannel, 60, 0⟩, ⟨1, .release, 1, pianoChannel, 64, 0⟩]

open Usual

theorem prepare_majorThird :
    majorThird.prepare pianist.patchMap = .ok (pianoAlone, majorThirdQueue) := by
  have scheduled : Performance.schedule pianoAlone 0 majorThird.events =
      .ok [⟨0, .attack, 0, 0, 60, 100⟩, ⟨1, .release, 0, 0, 60, 0⟩,
        ⟨0, .attack, 1, 0, 64, 100⟩, ⟨1, .release, 1, 0, 64, 0⟩] := by
    apply Outcome.eq_ok_of_toOption
    decide +kernel
  apply Performance.prepare_some rfl scheduled
  · decide +kernel
  · decide +kernel

namespace Stage

/-- A stage that loses the fourth message, and on which every pause ends with a stop. -/
def forgetful : Stage (StateM Nat) where
  send _ := fun sent => (if sent = 3 then .failed "device disconnected" else .sent, sent + 1)
  pause _ _ := fun sent => (.stopRequested, sent)
  now := fun sent => (0.0, sent)
  stopRequested := fun sent => (false, sent)
  report _ := fun sent => ((), sent)

/-- The first release is lost, and it was not the only one that was due. -/
theorem majorThird_releases_until_lost :
    let rendered := (forgetful.recorded.render pianist majorThird).run (0, [])
    forgetful.Unbroken ∧ pianist.state ≠ .streaming ∧
      majorThird.prepare pianist.patchMap = .ok (pianoAlone, majorThirdQueue) ∧
      ∃ ending last w before lost after reason,
        forgetful.recorded.Streamed pianist pianoAlone majorThirdQueue (0, []) ending last w ∧
          (∀ channel note, tally .attack channel note (delivered w.2) =
            tally .release channel note (delivered w.2) +
              (before ++ lost :: after).count (.release channel note)) ∧
          rendered.2.2 = w.2 ++ (arrivals before ++ [.sent lost (.failed reason)]) := by
  intro rendered
  have unbroken : forgetful.Unbroken := by
    intro m sent
    change (if sent = 3 then Delivery.failed "device disconnected" else .sent) ≠ .brokenOff
    split <;> nofun
  have free : pianist.state ≠ .streaming := nofun
  have loud : rendered.1.2.sounding ≠ .silent := by
    show ((forgetful.recorded.render pianist majorThird).run (0, [])).1.2.sounding ≠ .silent
    rw [render_eq rfl prepare_majorThird rfl]
    decide +kernel
  obtain ⟨ending, last, w, releases, streamed, -, balance, ⟨-, silent⟩ | lost⟩ :=
    (render_releases_until_lost unbroken free prepare_majorThird 0).2 rfl
  · exact absurd silent loud
  · obtain ⟨before, lost, after, reason, rfl, recorded⟩ := lost
    exact ⟨unbroken, free, prepare_majorThird, ending, last, w, before, lost, after, reason,
      streamed, balance, recorded⟩

end Stage

/-- A stop is requested in the first pause, and the first release that follows it is lost. -/
def hurriedEnd : Rehearsal.Script := { stops := [.pause 1], losses := [.message 4] }

/-- In this rehearsal the release of the lower note is lost, and that of the upper one is never
sent, although its attack has arrived. -/
theorem Rehearsal.upper_note_unreleased :
    let rendered := (world.recorded.render pianist majorThird).run (start hurriedEnd, [])
    Message.release 0 60 ∈ tried rendered.2.2 ∧ Message.release 0 64 ∉ tried rendered.2.2 ∧
      tally .attack 0 64 (delivered rendered.2.2) = 1 ∧
      tally .release 0 64 (delivered rendered.2.2) = 0 := by
  intro rendered
  have recorded : rendered.2.2 =
      [.sent (.programChange 0 0) .sent, .asked false, .asked false,
        .sent (.noteOn 0 60 100) .sent, .asked false, .asked false,
        .sent (.noteOn 0 64 100) .sent, .asked false, .waited .stopRequested,
        .sent (.noteOff 0 60 0) (.failed lossReason)] := by
    show ((world.recorded.render pianist majorThird).run (start hurriedEnd, [])).2.2 = _
    rw [Stage.render_eq rfl prepare_majorThird rfl]
    decide +kernel
  rw [recorded]
  decide +kernel

end MusicAlgebra
