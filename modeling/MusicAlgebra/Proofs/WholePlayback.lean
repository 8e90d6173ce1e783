import MusicAlgebra.Proofs.NoHangingNotes
import MusicAlgebra.Proofs.Polyphony
import MusicAlgebra.Proofs.Refusals

/-!
# Playing to the end

When nothing goes wrong and nobody asks for a stop, all messages of the queue are sent in order.
Then the count of sounding notes is the polyphony of the performance: after the messages up to a
moment it counts, for every note of a channel, the events that sound at this moment.
-/

namespace MusicAlgebra

open Happening Message

/-! ## Rates that can be told -/

/-- A quotient is not rounded below an integer that it reaches. -/
theorem Number.le_roundHalfEven {num den least : Nat} (pos : 0 < den) (large : least * den ≤ num) :
    least ≤ roundHalfEven num den := by
  have close : 2 * num ≤ 2 * (roundHalfEven num den * den) + den := (roundHalfEven_close pos).1
  by_contra less
  have short : (roundHalfEven num den + 1) * den ≤ least * den :=
    Nat.mul_le_mul_right den (Nat.not_le.1 less)
  rw [Nat.add_mul, Nat.one_mul] at short
  omega

/-- An integer of more than 1025 bits is far from every `Float`. -/
theorem Number.nearest?_eq_none {n : Nat} (long : 1025 ≤ n.log2) : nearest? (n : Int) = none := by
  have nonzero : n ≠ 0 := by
    rintro rfl
    cases long
  have below : 2 ^ n.log2 ≤ n := Nat.log2_self_le nonzero
  have guess : twoPow (n.log2 - Nat.log2 1 : Int) ≤ mkRat n 1 := by
    have whole : (n.log2 - Nat.log2 1 : Int) = n.log2 := Int.sub_zero _
    rw [whole, twoPow, if_pos (Int.natCast_nonneg _), Int.toNat_natCast, Rat.mkRat_one]
    exact_mod_cast below
  obtain ⟨e, split⟩ := Nat.exists_eq_add_of_le (Nat.le_trans (by decide : 52 ≤ 1025) long)
  have exponent : max ((n.log2 - Nat.log2 1 : Int) - 52) (-1074) = e := by
    have : Nat.log2 1 = 0 := rfl
    omega
  have mantissa : leadingBit ≤ roundHalfEven n (1 * Nat.pow 2 (e : Int).toNat) := by
    have whole : leadingBit * 2 ^ e = 2 ^ n.log2 := by
      rw [split, Nat.pow_add]
      rfl
    rw [Int.toNat_natCast, Nat.one_mul]
    exact le_roundHalfEven (Nat.two_pow_pos e) (whole ▸ below)
  have bits : reservedExponent * leadingBit ≤ ((e : Int) + 1075).toNat * leadingBit := by
    apply Nat.mul_le_mul_right
    have : reservedExponent = 2047 := rfl
    omega
  rw [nearest?, Rat.num_intCast, Rat.den_intCast, Int.natAbs_natCast, magnitudeBits, if_neg nonzero]
  dsimp only
  rw [if_pos guess, exponent, if_pos (Int.natCast_nonneg e), if_neg (Nat.not_lt.2 mantissa),
    if_pos (Nat.le_trans bits (Nat.le_add_right _ _))]
  rfl

/-- A rate for which seconds can be told can be told itself. -/
theorem BeatRate.isWritable_of_secondsPerWhole [Limits] {b : BeatRate}
    (finite : b.secondsPerWhole.isOk = true) : b.isWritable = true := by
  cases b with
  | real rate usable => rfl
  | whole rate pos =>
      obtain ⟨n, rfl⟩ := Int.eq_ofNat_of_zero_le (Int.le_of_lt pos)
      have short : n.log2 < 1025 := by
        by_contra long
        rw [secondsPerWhole, Number.nearest?_eq_none (Nat.not_lt.1 long)] at finite
        cases finite
      have admitted := Number.admits_of_le (le_refl 640)
      exact (Number.isWritable_intCast n).trans
        (Number.isShort_of_log2_lt admitted (short.trans (by decide)))

namespace Stage

variable {σ : Type} {stage : Stage (StateM σ)} {r last : Renderer} {p : Performance}
variable {patchMap : PatchMap} {placed : List Placed} {queue rest : List Scheduled} {s : σ}
variable {w : σ × List Happening}

/-- Nothing is lost on a stage, nobody asks for a stop there and nobody gives the task up. -/
structure Smooth (stage : Stage (StateM σ)) : Prop where
  reliable : stage.Reliable
  unhurried : ∀ s, (stage.stopRequested.run s).1 = false
  patient : ∀ delay r s, ((stage.pause delay r).run s).1 = .elapsed

namespace Smooth

theorem isStop_eq_false (smooth : stage.Smooth) {h : Happening} (shown : stage.Shows h) :
    h.isStop = false := by
  cases shown with
  | sent m s => rfl
  | asked s => exact smooth.unhurried s
  | waited delay r s => rw [smooth.patient]; rfl

/-- A turn can only go wrong because of its message. -/
theorem exists_message (smooth : stage.Smooth) {rate : BeatRate} {next : Scheduled}
    {new : List Happening} {outcome : Except Ending Message} (turned : Turned rate next new outcome)
    (shown : ∀ h ∈ new, stage.Shows h) (timely : (rate.seconds next.time).isOk = true)
    (sendable : next.message?.isSome = true) : ∃ m, outcome = .ok m := by
  cases turned with
  | taken => exact ⟨_, rfl⟩
  | stopped _ stops =>
      rw [smooth.isStop_eq_false (shown _ List.mem_concat_self)] at stops
      cases stops
  | abandoned => cases smooth.isStop_eq_false (shown _ List.mem_concat_self)
  | unplaced _ fault =>
      rw [fault] at timely
      cases timely
  | unsendable _ none =>
      rw [none] at sendable
      cases sendable
  | lost | brokenOff => cases smooth.reliable.eq_sent (shown _ List.mem_concat_self)

/-- All messages are played. -/
theorem exists_last_head [Limits] (smooth : stage.Smooth) {ending : Ending}
    (timely : ∀ m ∈ queue, (r.beatRate.seconds m.time).isOk = true)
    (sendable : ∀ m ∈ queue, m.message?.isSome = true)
    (streamed : stage.recorded.Streamed r patchMap queue (s, []) ending last w) :
    ending = .played ∧ ∃ start, stage.recorded.AtHead r patchMap queue (s, []) start [] last w := by
  cases streamed with
  | unselected tellable announced selected | brokenOff tellable announced selected =>
      obtain ⟨new, -, shown, attempted⟩ := (stage.sendAll_leaves _).of_run selected
      cases smooth.reliable.attempted attempted shown
  | played atHead => exact ⟨rfl, _, atHead⟩
  | ended atHead failed =>
      have inside := atHead.isSuffix.subset List.mem_cons_self
      obtain ⟨before, sent, -, -, rfl⟩ := atHead.progress
      obtain ⟨new, -, shown, turned⟩ := (stage.turn_leaves _ _ _).of_run failed
      obtain ⟨m, taken⟩ :=
        smooth.exists_message turned shown (timely _ inside) (sendable _ inside)
      cases taken

end Smooth

/-- At every head the count of sounding notes is that of the events that are held. -/
theorem AtHead.count_eq [Limits] {start : Float} {head : Renderer}
    (atHead : stage.recorded.AtHead r patchMap queue (s, []) start rest head w)
    (queued : p.Queued patchMap placed queue) :
    ∃ before, queue = before ++ rest ∧ ∀ channel note, head.sounding.count channel note =
      placed.countP fun x => x.isOn channel note && x.isHeld before := by
  obtain ⟨before, sent, rfl, progress, rfl⟩ := atHead.progress
  refine ⟨before, rfl, ?_⟩
  intro channel note
  have counted := Sounding.count_afterAll (queued.balanced progress.sendable) channel note
  have held := queued.tally_attack_eq_add progress.sendable channel note
  rw [Renderer.streaming_sounding]
  omega

/-- Up to a moment the count of sounding notes is that of the events that sound then. -/
theorem AtHead.count_eq_soundsAt [Limits] {start : Float} {head : Renderer} {moment : Rat}
    (atHead : stage.recorded.AtHead r patchMap queue (s, []) start
      (queue.dropWhile fun m => m.time ≤ moment) head w)
    (queued : p.Queued patchMap placed queue) (channel : Channel) (note : DataByte) :
    head.sounding.count channel note =
      placed.countP fun x => x.isOn channel note && x.soundsAt moment := by
  obtain ⟨before, split, counted⟩ := atHead.count_eq queued
  have front : before = queue.takeWhile fun m => m.time ≤ moment := by
    apply List.append_cancel_right (split.symm.trans _)
    exact List.takeWhile_append_dropWhile.symm
  rw [counted, front]
  apply List.countP_congr
  intro x member
  rw [queued.isHeld_takeWhile member]

/-- Where nothing goes wrong and nobody asks for a stop, a performance is played to its end: its
instruments are selected, and then one attack and one release of every audible event are sent in
order.  After the messages up to a moment, the count of sounding notes is that of the events that
sound then; and where the events of a note do not overlap, its attacks and releases alternate. -/
theorem render_plays_everything [Limits] (smooth : stage.Smooth) (free : r.state ≠ .streaming)
    (prepared : p.prepare r.patchMap = .ok (patchMap, queue))
    (finite : r.beatRate.secondsPerWhole.isOk = true) (soft : ∀ e ∈ p.events, e.volume ≤ 127)
    (timely : ∀ e ∈ p.events, e.isAudible = true →
      (r.beatRate.seconds e.onset).isOk = true ∧ (r.beatRate.seconds e.finish).isOk = true)
    (s : σ) :
    let rendered := (stage.recorded.render r p).run (s, [])
    (stage.render r p).run s = (rendered.1, rendered.2.1) ∧
      rendered.1.1 = .ok .stopped ∧ rendered.1.2.state = .stopped ∧
      ∃ placed sent, p.Places patchMap placed ∧
        queue.Perm (placed.flatMap Placed.messages) ∧ queue.Pairwise Scheduled.Before ∧
        queue.map Scheduled.message? = sent.map some ∧
        tried rendered.2.2 = patchMap.programChanges ++ sent ∧
        delivered rendered.2.2 = patchMap.programChanges ++ sent ∧
        (∀ moment, (∃ start head w, stage.recorded.AtHead r patchMap queue (s, []) start
            (queue.dropWhile fun m => m.time ≤ moment) head w) ∧
          ∀ start head w, stage.recorded.AtHead r patchMap queue (s, []) start
            (queue.dropWhile fun m => m.time ≤ moment) head w →
              ∀ channel note, head.sounding.count channel note =
                placed.countP fun x => x.isOn channel note && x.soundsAt moment) ∧
        ∀ channel note, Placed.Apart channel note placed →
          ∃ n, sent.filterMap (actionOn? channel note) =
            (List.replicate n [.attack, .release]).flatten := by
  intro rendered
  obtain ⟨placed, queued⟩ := Performance.exists_queued_of_prepare prepared
  obtain ⟨sent, sendable⟩ := Scheduled.exists_messages (queued.isSome_message? soft)
  obtain ⟨ending, last, w, new, streamed, concluded, recorded, -⟩ :=
    stage.exists_course free prepared (BeatRate.isWritable_of_secondsPerWhole finite) s
  have timely : ∀ m ∈ queue, (r.beatRate.seconds m.time).isOk = true := by
    intro m member
    exact queued.time_of_mem (fun time => (r.beatRate.seconds time).isOk = true) timely member
  obtain ⟨rfl, start, atHead⟩ :=
    smooth.exists_last_head timely (queued.isSome_message? soft) streamed
  -- No message is left at the last head, so its record is that of the whole queue.
  obtain ⟨before, delivered, whole, progress, -⟩ := atHead.progress
  rw [List.append_nil] at whole
  subst whole
  obtain rfl : sent = delivered :=
    List.map_injective_iff.2 (Option.some_injective _) (sendable.symm.trans progress.sendable)
  obtain ⟨answered, rfl⟩ := concluded.of_played
  rw [List.append_nil] at recorded
  refine ⟨(stage.recorded_render r p s []).symm, congrArg Prod.fst answered,
    congrArg (·.2.state) answered, placed, sent,
    queued.places, queued.messages, queued.pairwise_before, sendable, recorded ▸ progress.tried,
    recorded ▸ progress.delivered, ?_, ?_⟩
  · intro moment
    refine ⟨?_, fun start head w atHead => atHead.count_eq_soundsAt queued⟩
    obtain ⟨head, w, reached⟩ :=
      atHead.earlier (List.nil_suffix) (List.dropWhile_suffix _)
    exact ⟨start, head, w, reached⟩
  · intro channel note apart
    exact queued.alternate sendable apart

end Stage

/-! ## A repeated note -/

/-- Two notes of one pitch, the later one first, and a note that cannot be heard. -/
def repeatedNote : Performance :=
  ⟨[⟨1, 1, 60, 80, "acoustic_grand_piano"⟩, ⟨1 / 2, 0, 62, 90, "acoustic_grand_piano"⟩,
    ⟨0, 1, 60, 100, "acoustic_grand_piano"⟩], 2⟩

def repeatedNoteQueue : List Scheduled :=
  [⟨0, .attack, 1, pianoChannel, 60, 100⟩, ⟨1, .release, 1, pianoChannel, 60, 0⟩,
    ⟨1, .attack, 0, pianoChannel, 60, 80⟩, ⟨2, .release, 0, pianoChannel, 60, 0⟩]

open Usual

theorem prepare_repeatedNote :
    repeatedNote.prepare pianist.patchMap = .ok (pianoAlone, repeatedNoteQueue) := by
  have scheduled : Performance.schedule pianoAlone 0 repeatedNote.events =
      .ok [⟨1, .attack, 0, 0, 60, 80⟩, ⟨2, .release, 0, 0, 60, 0⟩,
        ⟨0, .attack, 1, 0, 60, 100⟩, ⟨1, .release, 1, 0, 60, 0⟩] := by
    apply Outcome.eq_ok_of_toOption
    decide +kernel
  apply Performance.prepare_some rfl scheduled
  · decide +kernel
  · decide +kernel

namespace Stage

/-- A stage that does whatever it is asked to. -/
def obliging : Stage (StateM Unit) where
  send _ := fun u => (.sent, u)
  pause _ _ := fun u => (.elapsed, u)
  now := fun u => (0.0, u)
  stopRequested := fun u => (false, u)
  report _ := fun u => ((), u)

/-- The notes do not overlap, although one begins where the other ends, and so they alternate. -/
theorem repeatedNote_plays_everything :
    let rendered := (obliging.recorded.render pianist repeatedNote).run ((), [])
    obliging.Smooth ∧ pianist.state ≠ .streaming ∧
      repeatedNote.prepare pianist.patchMap = .ok (pianoAlone, repeatedNoteQueue) ∧
      pianist.beatRate.secondsPerWhole.isOk = true ∧
      (∀ e ∈ repeatedNote.events, e.volume ≤ 127) ∧
      (∀ e ∈ repeatedNote.events, e.isAudible = true →
        (pianist.beatRate.seconds e.onset).isOk = true ∧
          (pianist.beatRate.seconds e.finish).isOk = true) ∧
      rendered.1.1 = .ok .stopped ∧
      ∃ sent n, delivered rendered.2.2 = pianoAlone.programChanges ++ sent ∧
        sent.filterMap (actionOn? 0 60) = (List.replicate n [.attack, .release]).flatten := by
  dsimp only
  have smooth : obliging.Smooth := ⟨fun _ _ => rfl, fun _ => rfl, fun _ _ _ => rfl⟩
  have free : pianist.state ≠ .streaming := nofun
  have soft : ∀ e ∈ repeatedNote.events, e.volume ≤ 127 := by decide +kernel
  have timely : ∀ e ∈ repeatedNote.events, e.isAudible = true →
      (pianist.beatRate.seconds e.onset).isOk = true ∧
        (pianist.beatRate.seconds e.finish).isOk = true := by decide +kernel
  obtain ⟨-, stopped, -, placed, sent, places, -, -, -, -, delivered, -, alternate⟩ :=
    render_plays_everything smooth free prepare_repeatedNote rfl soft timely ()
  refine ⟨smooth, free, prepare_repeatedNote, rfl, soft, timely, stopped, sent, ?_⟩
  have apart : Placed.Apart 0 60 placed := by
    have shown : placed.map Placed.event =
        [⟨1, 1, 60, 80, "acoustic_grand_piano"⟩, ⟨0, 1, 60, 100, "acoustic_grand_piano"⟩] := by
      rw [places.events]
      decide +kernel
    apply List.Pairwise.imp _ (List.pairwise_map.1 (shown ▸ (by decide +kernel :
      List.Pairwise (fun d e : Event => d.finish ≤ e.onset ∨ e.finish ≤ d.onset)
        [⟨1, 1, 60, 80, "acoustic_grand_piano"⟩, ⟨0, 1, 60, 100, "acoustic_grand_piano"⟩])))
    exact fun disjoint _ _ => disjoint
  obtain ⟨n, alternating⟩ := alternate 0 60 apart
  exact ⟨n, delivered, alternating⟩

end Stage

end MusicAlgebra
