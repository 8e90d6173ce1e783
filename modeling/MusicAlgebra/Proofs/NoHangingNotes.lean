import MusicAlgebra.Proofs.RenderingCourse

/-!
# No note is left hanging

As long as every message arrives, the renderer's count of sounding notes is exact whenever it is
about to take a message: no note is counted that was not attacked, and none is forgotten.  So
whenever a stop is noticed, or the task is given up, the releases that follow are those of the notes
that sound then, each as often as it sounds, and nothing else is sent.
-/

namespace MusicAlgebra

open Happening Message

namespace Stage

variable {σ : Type} {stage : Stage (StateM σ)} {r last : Renderer} {p : Performance}
variable {patchMap : PatchMap} {placed : List Placed} {queue before rest : List Scheduled}
variable {sent : List Message} {record : List Happening} {ending : Ending} {s : σ}
variable {w : σ × List Happening}

/-! ## The count of sounding notes -/

/-- The count at a head is exact. -/
theorem AtHead.tally_eq [Limits] {start : Float} {head : Renderer}
    (atHead : stage.recorded.AtHead r patchMap queue (s, []) start rest head w)
    (queued : p.Queued patchMap placed queue) (channel : Channel) (note : DataByte) :
    tally .attack channel note (delivered w.2) =
      head.sounding.count channel note + tally .release channel note (delivered w.2) := by
  obtain ⟨before, sent, rfl, progress, rfl⟩ := atHead.progress
  have counted := Sounding.count_afterAll (queued.balanced progress.sendable) channel note
  simp only [progress.delivered, tally_append, tally_programChanges, Nat.zero_add]
  exact counted.symm

/-- When the streaming has ended, every attack without a release is one that has to be released. -/
theorem Account.tally_eq (account : Account queue before sent record)
    (queued : p.Queued patchMap placed queue) (channel : Channel) (note : DataByte) :
    Message.tally .attack channel note (delivered record) =
      Message.tally .release channel note (delivered record) +
        (Sounding.silent.afterAll sent).releases.count (.release channel note) := by
  obtain ⟨rest, rfl⟩ := account.front
  have counted := Sounding.count_afterAll (queued.balanced account.sendable) channel note
  rw [account.tally, account.tally, ← counted, Nat.add_comm,
    (Sounding.wellFormed_silent.afterAll sent).count_releases]

/-- Nothing sounds when everything was played. -/
theorem Streamed.sounding_of_played [Limits]
    (streamed : stage.recorded.Streamed r patchMap queue (s, []) .played last w)
    (queued : p.Queued patchMap placed queue) : last.sounding = .silent := by
  obtain ⟨start, atHead⟩ := streamed.atHead_of_played
  have counted := atHead.tally_eq queued
  obtain ⟨before, sent, whole, progress, rfl⟩ := atHead.progress
  rw [List.append_nil] at whole
  subst whole
  apply (Sounding.wellFormed_silent.afterAll sent).eq_silent
  intro channel note
  have equal := queued.tally_eq progress.sendable channel note
  have counted := counted channel note
  simp only [progress.delivered, tally_append, tally_programChanges, Nat.zero_add,
    Renderer.streaming_sounding] at counted
  omega

/-! ## Releasing -/

/-- The user never breaks the program off while a message is sent on the stage. -/
def Unbroken (stage : Stage (StateM σ)) : Prop := ∀ m s, ((stage.send m).run s).1 ≠ .brokenOff

theorem Unbroken.ne_brokenOff (unbroken : stage.Unbroken) {m : Message} {delivery : Delivery}
    (shown : stage.Shows (.sent m delivery)) : delivery ≠ .brokenOff := by
  cases shown with
  | sent _ s => exact unbroken m s

theorem Unbroken.attempted_ne_brokenOff (unbroken : stage.Unbroken) {messages : List Message}
    {new : List Happening} {delivery : Delivery} (attempted : Attempted messages new delivery)
    (shown : ∀ h ∈ new, stage.Shows h) : delivery ≠ .brokenOff := by
  cases attempted with
  | all => exact nofun
  | lost split missed => exact unbroken.ne_brokenOff (shown _ List.mem_concat_self)

theorem Unbroken.ending_ne_brokenOff [Limits] (unbroken : stage.Unbroken)
    (streamed : stage.recorded.Streamed r patchMap queue (s, []) ending last w) :
    ending ≠ .brokenOff := by
  rintro rfl
  cases streamed with
  | brokenOff tellable announced selected =>
      obtain ⟨new, -, shown, attempted⟩ := (stage.sendAll_leaves _).of_run selected
      exact unbroken.attempted_ne_brokenOff attempted shown rfl
  | ended atHead failed =>
      obtain ⟨new, -, shown, turned⟩ := (stage.turn_leaves _ _ _).of_run failed
      cases turned with
      | brokenOff quiet sendable =>
          exact unbroken.ne_brokenOff (shown _ List.mem_concat_self) rfl

/-- However the streaming ended, the releases of all that sounds are then tried, and nothing sounds
any more if they arrive. -/
theorem Streamed.attempted [Limits]
    (streamed : stage.recorded.Streamed r patchMap queue (s, []) ending last w)
    (queued : p.Queued patchMap placed queue) (whole : ending ≠ .brokenOff)
    {released : List Happening} {answer : Except Halt RenderState} {quiet : Renderer}
    (concluded : Concluded last ending released (answer, quiet)) :
    ∃ delivery, Attempted last.sounding.releases released delivery ∧
      (delivery = .sent → quiet.sounding = .silent) := by
  by_cases played : ending = .played
  · subst played
    have silent := streamed.sounding_of_played queued
    obtain ⟨answered, rfl⟩ := concluded.of_played
    cases answered
    refine ⟨.sent, ?_, fun _ => silent⟩
    rw [silent]
    exact .all
  · exact concluded.attempted played whole

/-! ## Stages that lose nothing -/

/-- Every message that is sent on the stage arrives. -/
def Reliable (stage : Stage (StateM σ)) : Prop := ∀ m s, ((stage.send m).run s).1 = .sent

namespace Reliable

theorem unbroken (reliable : stage.Reliable) : stage.Unbroken := by
  intro m s
  rw [reliable]
  exact nofun

theorem eq_sent (reliable : stage.Reliable) {m : Message} {delivery : Delivery}
    (shown : stage.Shows (.sent m delivery)) : delivery = .sent := by
  cases shown with
  | sent _ s => exact reliable m s

theorem attempted (reliable : stage.Reliable) {messages : List Message} {new : List Happening}
    {delivery : Delivery} (attempted : Attempted messages new delivery)
    (shown : ∀ h ∈ new, stage.Shows h) : delivery = .sent := by
  cases attempted with
  | all => rfl
  | lost split missed =>
      exact reliable.eq_sent (shown _ List.mem_concat_self)

end Reliable

/-- However a rendering ends on a stage that loses nothing, and whenever it is asked to, it leaves
no note hanging.  At every head the count of sounding notes is that of the attacks without a
release.  When a stop is noticed, everything that is sent from then on is the release of a note,
each as often as the note sounds then.  In the end every note has been released as often as it was
attacked. -/
theorem render_leaves_nothing_hanging [Limits] (reliable : stage.Reliable)
    (free : r.state ≠ .streaming)
    (prepared : p.prepare r.patchMap = .ok (patchMap, queue)) (s : σ) :
    let rendered := (stage.recorded.render r p).run (s, [])
    (stage.render r p).run s = (rendered.1, rendered.2.1) ∧
      (∀ start rest head w, stage.recorded.AtHead r patchMap queue (s, []) start rest head w →
        ∀ channel note, tally .attack channel note (delivered w.2) =
          head.sounding.count channel note + tally .release channel note (delivered w.2)) ∧
      (∀ before stop after, rendered.2.2 = before ++ stop :: after → stop.isStop = true →
        ∃ releases, after = arrivals releases ∧
          (∀ m ∈ releases, ∃ channel note, m = .release channel note) ∧
          ∀ channel note, tally .attack channel note (delivered before) =
            tally .release channel note (delivered before) +
              releases.count (.release channel note)) ∧
      (∀ channel note, tally .attack channel note (delivered rendered.2.2) =
        tally .release channel note (delivered rendered.2.2)) ∧
      rendered.1.2.sounding = .silent := by
  intro rendered
  obtain ⟨placed, queued⟩ := Performance.exists_queued_of_prepare prepared
  have exact : ∀ start rest head w,
      stage.recorded.AtHead r patchMap queue (s, []) start rest head w → ∀ channel note,
        tally .attack channel note (delivered w.2) =
          head.sounding.count channel note + tally .release channel note (delivered w.2) :=
    fun start rest head w atHead => atHead.tally_eq queued
  have answered : (stage.render r p).run s = (rendered.1, rendered.2.1) :=
    (stage.recorded_render r p s []).symm
  cases tellable : r.beatRate.isWritable with
  | false =>
      -- Nothing is sent, so nothing has to be released.
      have untold : rendered = ((.error .unwritable, r.streaming .silent), s, []) :=
        congrFun (stage.recorded.render_untold free prepared tellable) (s, [])
      rw [untold] at answered ⊢
      exact ⟨answered, exact, fun before _ _ split => by simp at split, fun _ _ => rfl, rfl⟩
  | true =>
      obtain ⟨ending, last, w, new, streamed, concluded, recorded, shown⟩ :=
        stage.exists_course free prepared tellable s
      obtain ⟨delivery, attempted, silenced⟩ :=
        streamed.attempted queued (reliable.unbroken.ending_ne_brokenOff streamed) concluded
      -- Nothing is lost, so all that sounded at the end of the streaming has been released.
      obtain rfl := reliable.attempted attempted shown
      obtain rfl := attempted.eq_arrivals
      have silent := silenced rfl
      obtain ⟨before, sent, account, rfl⟩ := streamed.exists_account
      refine ⟨answered, exact, ?_, ?_, silent⟩
      · intro earlier stop later split stops
        -- The stop ended the streaming, and what follows it are the releases.
        obtain ⟨streaming, rfl⟩ :=
          account.eq_of_stop Attempted.all.isStop_eq_false (recorded.symm.trans split) stops
        refine ⟨_, rfl, fun m => Sounding.exists_of_mem_releases, ?_⟩
        intro channel note
        have balance := account.tally_eq queued channel note
        rwa [streaming, delivered_append, delivered_stop stops, List.append_nil] at balance
      · intro channel note
        rw [recorded, Renderer.streaming_sounding, delivered_append, delivered_arrivals,
          tally_append, tally_append, account.tally_eq queued, Sounding.tally_attack_releases,
          Sounding.tally_release_releases, Nat.add_zero]

end Stage

/-! ## A stop in an echo -/

/-- The piano on the first channel. -/
def pianoAlone : PatchMap := ⟨[(.melodic 0, 0)]⟩

def pianoChannel : Channel := 0

def pianist : Renderer := { beatRate := .standard, patchMap := some pianoAlone }

/-- A note that is attacked again before it is released. -/
def echo : Performance :=
  ⟨[⟨0, 1, 60, 100, "acoustic_grand_piano"⟩, ⟨1 / 2, 1, 60, 80, "acoustic_grand_piano"⟩], 3 / 2⟩

def echoQueue : List Scheduled :=
  [⟨0, .attack, 0, 0, 60, 100⟩, ⟨1 / 2, .attack, 1, 0, 60, 80⟩, ⟨1, .release, 0, 0, 60, 0⟩,
    ⟨3 / 2, .release, 1, 0, 60, 0⟩]

open Usual

theorem prepare_echo : echo.prepare pianist.patchMap = .ok (pianoAlone, echoQueue) := by
  have scheduled : Performance.schedule pianoAlone 0 echo.events =
      .ok [⟨0, .attack, 0, 0, 60, 100⟩, ⟨1, .release, 0, 0, 60, 0⟩,
        ⟨1 / 2, .attack, 1, 0, 60, 80⟩, ⟨3 / 2, .release, 1, 0, 60, 0⟩] := by
    apply Outcome.eq_ok_of_toOption
    decide +kernel
  apply Performance.prepare_some rfl scheduled
  · decide +kernel
  · decide +kernel

namespace Stage

/-- A stage on which a stop is requested in the second pause. -/
def impatient : Stage (StateM Nat) where
  send _ := fun pauses => (.sent, pauses)
  pause _ _ := fun pauses => (if pauses = 1 then .stopRequested else .elapsed, pauses + 1)
  now := fun pauses => (0.0, pauses)
  stopRequested := fun pauses => (decide (2 ≤ pauses), pauses)
  report _ := fun pauses => ((), pauses)

/-- The stop comes when both attacks of the echo sound, and two releases follow it. -/
theorem stoppedEcho_leaves_nothing_hanging :
    let rendered := (impatient.recorded.render pianist echo).run (0, [])
    impatient.Reliable ∧ pianist.state ≠ .streaming ∧
      echo.prepare pianist.patchMap = .ok (pianoAlone, echoQueue) ∧
      (∃ releases, rendered.2.2 =
        [.sent (.programChange 0 0) .sent, .asked false, .asked false,
          .sent (.noteOn 0 60 100) .sent, .asked false, .waited .elapsed, .asked false,
          .sent (.noteOn 0 60 80) .sent, .asked false] ++ .waited .stopRequested ::
            arrivals releases ∧ releases.count (.release 0 60) = 2) ∧
      (∀ channel note, tally .attack channel note (delivered rendered.2.2) =
        tally .release channel note (delivered rendered.2.2)) ∧
      rendered.1.2.sounding = .silent := by
  intro rendered
  have reliable : impatient.Reliable := fun _ _ => rfl
  have free : pianist.state ≠ .streaming := nofun
  obtain ⟨-, -, stopped, balance, silent⟩ :=
    render_leaves_nothing_hanging reliable free prepare_echo 0
  refine ⟨reliable, free, prepare_echo, ?_, balance, silent⟩
  have recorded : rendered.2.2 =
      [.sent (.programChange 0 0) .sent, .asked false, .asked false,
        .sent (.noteOn 0 60 100) .sent, .asked false, .waited .elapsed, .asked false,
        .sent (.noteOn 0 60 80) .sent, .asked false] ++ .waited .stopRequested ::
          [.sent (.noteOff 0 60 0) .sent, .sent (.noteOff 0 60 0) .sent] := by
    show ((impatient.recorded.render pianist echo).run (0, [])).2.2 = _
    rw [render_eq rfl prepare_echo rfl]
    decide +kernel
  obtain ⟨releases, after, -, counted⟩ := stopped _ _ _ recorded rfl
  refine ⟨releases, after ▸ recorded, ?_⟩
  have two := counted 0 60
  rw [show tally .attack 0 60 (delivered _) = 2 from rfl,
    show tally .release 0 60 (delivered _) = 0 from rfl] at two
  omega

end Stage

end MusicAlgebra
