import MusicAlgebra.Proofs.LostReleases
import MusicAlgebra.Proofs.PreparedPerformance

/-!
# A renderer from call to call

A renderer is called again and again, on stages where messages are lost, stops are requested and
tasks are given up.  Each call that gets under way settles in one of three states, which tells how
it ended, and a call during another one is refused.  So no history of calls leaves a renderer
streaming, and the next call finds it as good as new.  Two kinds of calls say nothing of their end,
both for a number that cannot be told.  One that is refused leaves the renderer as it was.  And one
that cannot tell the rate leaves it streaming for good, so that every later call is refused.
-/

namespace MusicAlgebra

open Happening Outcome

/-- The renderer before it has rendered anything. -/
def Renderer.fresh (r : Renderer) : Renderer := { beatRate := r.beatRate, patchMap := r.patchMap }

/-- What a renderer is left as by a call: set up as before, and free for the next call if its rate
can be told. -/
structure Renderer.Reusable [Limits] (r used : Renderer) : Prop where
  free : r.beatRate.isWritable = true → used.state ≠ .streaming
  beatRate : used.beatRate = r.beatRate
  patchMap : used.patchMap = r.patchMap

namespace Stage

variable {σ : Type} {stage : Stage (StateM σ)} {r last : Renderer} {p : Performance}
variable {patchMap : PatchMap} {queue rest : List Scheduled} {s : σ} {w : σ × List Happening}

/-! ## Calls that do not get under way -/

/-- A call during another one is refused and changes nothing. -/
theorem render_busy [Limits] (stage : Stage (StateM σ)) (busy : r.state = .streaming)
    (p : Performance) :
    stage.render r p = pure (.error (.failed .alreadyStreaming), r) := by
  rw [render, Renderer.accept, if_pos busy]

theorem render_failed [Limits] (stage : Stage (StateM σ)) (free : r.state ≠ .streaming)
    {cause : RenderFailure} (refused : p.prepare r.patchMap = .error (.failed cause)) :
    stage.render r p = pure (.error (.failed cause), { r with state := .failed }) := by
  rw [render, Renderer.accept_of_free free, refused]

theorem render_unwritable [Limits] (stage : Stage (StateM σ)) (free : r.state ≠ .streaming)
    (untold : p.prepare r.patchMap = .error .unwritable) :
    stage.render r p = pure (.error .unwritable, r) := by
  rw [render, Renderer.accept_of_free free, untold]

/-- A renderer answers and sends as it did when it was new, and is left in the same state as then,
unless it is left in the state in which it was. -/
theorem render_fresh [Limits] (stage : Stage (StateM σ)) (free : r.state ≠ .streaming)
    (p : Performance)
    (s : σ) :
    let rendered := (stage.render r p).run s
    let anew := (stage.render r.fresh p).run s
    rendered.1.1 = anew.1.1 ∧ rendered.2 = anew.2 ∧
      (p.prepare r.patchMap ≠ .error .unwritable → rendered.1.2.state = anew.1.2.state) := by
  have new : r.fresh.state ≠ .streaming := nofun
  cases prepared : p.prepare r.patchMap with
  | ok queued =>
      rw [render_eq_renderQueue (Renderer.accept_of_free free) prepared,
        render_eq_renderQueue (Renderer.accept_of_free new) prepared]
      exact ⟨rfl, rfl, fun _ => rfl⟩
  | error halt =>
      cases Performance.fromPreparing_of_prepare prepared with
      | failed cause =>
          rw [stage.render_failed free prepared, stage.render_failed new prepared]
          exact ⟨rfl, rfl, fun _ => rfl⟩
      | unwritable =>
          rw [stage.render_unwritable free prepared, stage.render_unwritable new prepared]
          exact ⟨rfl, rfl, fun told => absurd rfl told⟩

/-! ## How a call settles -/

/-- A call sends every message of its queue: nothing is left at one of its heads. -/
def PlaysAll [Limits] (stage : Stage (StateM σ)) (r : Renderer) (patchMap : PatchMap)
    (queue : List Scheduled) (s : σ) : Prop :=
  ∃ start head w, stage.recorded.AtHead r patchMap queue (s, []) start [] head w

/-- How a call that got under way has ended, if the user did not break it off: the answer of the
renderer and its state, by whether all messages were sent. -/
inductive Settled (plays : Prop) : Except Halt RenderState → RenderState → Prop where
  | stopped (all : plays) : Settled plays (.ok .stopped) .stopped
  | interrupted (left : ¬ plays) : Settled plays (.ok .interrupted) .interrupted
  | abandoned (left : ¬ plays) : Settled plays (.error .abandoned) .interrupted
  | failed {cause : RenderFailure} (left : ¬ plays) :
      Settled plays (.error (.failed cause)) .failed

namespace Settled

variable {plays : Prop} {answer : Except Halt RenderState} {state answered : RenderState}

theorem failed_iff (settled : Settled plays answer state) :
    state = .failed ↔ ∃ cause, answer = .error (.failed cause) := by
  cases settled with
  | failed => exact ⟨fun _ => ⟨_, rfl⟩, fun _ => rfl⟩
  | stopped | interrupted | abandoned => exact ⟨nofun, nofun⟩

theorem stopped_iff (settled : Settled plays answer state) :
    state = .stopped ↔ (∃ answered, answer = .ok answered) ∧ plays := by
  cases settled with
  | stopped all => exact ⟨fun _ => ⟨⟨_, rfl⟩, all⟩, fun _ => rfl⟩
  | interrupted left | abandoned left | failed left =>
      exact ⟨nofun, fun ⟨_, all⟩ => absurd all left⟩

/-- There is no third state. -/
theorem interrupted_iff (settled : Settled plays answer state) :
    state = .interrupted ↔ state ≠ .failed ∧ state ≠ .stopped := by
  cases settled <;> simp

theorem eq_of_ok (settled : Settled plays answer state) (answers : answer = .ok answered) :
    state = answered := by
  subst answers
  cases settled <;> rfl

end Settled

/-- Whoever looks at a renderer at one of its heads finds it streaming. -/
theorem AtHead.state_eq [Limits] {start : Float} {head : Renderer}
    (atHead : stage.recorded.AtHead r patchMap queue (s, []) start rest head w) :
    head.state = .streaming := by
  obtain ⟨before, sent, -, -, rfl⟩ := atHead.progress
  rfl

/-- From a head where nothing is left, the rendering stops. -/
theorem PlaysAll.answer_eq [Limits] (plays : stage.PlaysAll r patchMap queue s)
    (free : r.state ≠ .streaming) (prepared : p.prepare r.patchMap = .ok (patchMap, queue)) :
    ((stage.recorded.render r p).run (s, [])).1.1 = .ok .stopped := by
  obtain ⟨start, head, w, atHead⟩ := plays
  rw [atHead.run_eq (Renderer.accept_of_free free) prepared]
  rfl

theorem PlaysAll.delivered_eq [Limits] (plays : stage.PlaysAll r patchMap queue s)
    (free : r.state ≠ .streaming) (prepared : p.prepare r.patchMap = .ok (patchMap, queue)) :
    ∃ sent, queue.map Scheduled.message? = sent.map some ∧
      delivered ((stage.recorded.render r p).run (s, [])).2.2 =
        patchMap.programChanges ++ sent := by
  obtain ⟨start, head, w, atHead⟩ := plays
  obtain ⟨before, sent, whole, progress, -⟩ := atHead.progress
  rw [List.append_nil] at whole
  refine ⟨sent, whole ▸ progress.sendable, ?_⟩
  rw [atHead.run_eq (Renderer.accept_of_free free) prepared]
  exact progress.delivered

/-- An unbroken call settles, and leaves the renderer reusable. -/
theorem render_settles [Limits] (unbroken : stage.Unbroken) (free : r.state ≠ .streaming)
    (prepared : p.prepare r.patchMap = .ok (patchMap, queue))
    (tellable : r.beatRate.isWritable = true) (s : σ) :
    let rendered := (stage.recorded.render r p).run (s, [])
    Settled (stage.PlaysAll r patchMap queue s) rendered.1.1 rendered.1.2.state ∧
      r.Reusable rendered.1.2 := by
  dsimp only
  -- Nothing but the last head leads to the answer that the rendering has stopped.
  have left : ((stage.recorded.render r p).run (s, [])).1.1 ≠ .ok .stopped →
      ¬ stage.PlaysAll r patchMap queue s :=
    fun other plays => other (plays.answer_eq free prepared)
  obtain ⟨ending, last, w, released, streamed, concluded, -, shown⟩ :=
    stage.exists_course free prepared tellable s
  obtain ⟨_, sent, -, rfl⟩ := streamed.exists_account
  generalize ((stage.recorded.render r p).run (s, [])).1 = ended at concluded left ⊢
  cases concluded with
  | played =>
      obtain ⟨start, atHead⟩ := streamed.atHead_of_played
      exact ⟨.stopped ⟨start, _, w, atHead⟩, fun _ => nofun, rfl, rfl⟩
  | brokenOff => exact absurd rfl (unbroken.ending_ne_brokenOff streamed)
  | interrupted => exact ⟨.interrupted (left nofun), fun _ => nofun, rfl, rfl⟩
  | abandoned => exact ⟨.abandoned (left nofun), fun _ => nofun, rfl, rfl⟩
  | unreleased | faulty => exact ⟨.failed (left nofun), fun _ => nofun, rfl, rfl⟩
  | cutShort _ _ attempted =>
      exact absurd rfl (unbroken.attempted_ne_brokenOff attempted shown)

end Stage

/-! ## One call after the other -/

namespace Renderer

variable {σ : Type} {r used : Renderer} {stage : Stage (StateM σ)} {p : Performance}

namespace Reusable

theorem refl [Limits] (free : r.beatRate.isWritable = true → r.state ≠ .streaming) : r.Reusable r :=
  ⟨free, rfl, rfl⟩

/-- The next call finds the renderer free as well. -/
theorem ready [Limits] (reusable : r.Reusable used) :
    used.beatRate.isWritable = true → used.state ≠ .streaming :=
  fun tellable => reusable.free (reusable.beatRate ▸ tellable)

theorem trans [Limits] {later : Renderer} (reusable : r.Reusable used)
    (again : used.Reusable later) :
    r.Reusable later where
  free tellable := again.free (reusable.beatRate ▸ tellable)
  beatRate := again.beatRate.trans reusable.beatRate
  patchMap := again.patchMap.trans reusable.patchMap

/-- What was new about a renderer is the same after a call. -/
theorem fresh_eq [Limits] (reusable : r.Reusable used) : used.fresh = r.fresh := by
  rw [fresh, fresh, reusable.beatRate, reusable.patchMap]

end Reusable

/-- A call that cannot tell the rate keeps the set-up. -/
theorem reusable_streaming [Limits] (untold : r.beatRate.isWritable = false) (sounding : Sounding) :
    r.Reusable (r.streaming sounding) where
  free tellable := by
    rw [untold] at tellable
    cases tellable
  beatRate := rfl
  patchMap := rfl

/-- Every unbroken call on a reusable renderer leaves it reusable. -/
theorem reusable_render [Limits] (unbroken : stage.Unbroken)
    (free : r.beatRate.isWritable = true → r.state ≠ .streaming) (p : Performance) (s : σ) :
    r.Reusable ((stage.render r p).run s).1.2 := by
  by_cases busy : r.state = .streaming
  · rw [stage.render_busy busy]
    exact .refl free
  · cases prepared : p.prepare r.patchMap with
    | ok prepared =>
        cases tellable : r.beatRate.isWritable with
        | true =>
            have recorded := stage.recorded_render r p s []
            obtain ⟨-, reusable⟩ := Stage.render_settles unbroken busy prepared tellable s
            rw [← recorded]
            exact reusable
        | false =>
            rw [stage.render_untold busy prepared tellable]
            exact reusable_streaming tellable .silent
    | error halt =>
        cases Performance.fromPreparing_of_prepare prepared with
        | failed cause =>
            rw [stage.render_failed busy prepared]
            exact ⟨fun _ => nofun, rfl, rfl⟩
        | unwritable =>
            rw [stage.render_unwritable busy prepared]
            exact .refl free

/-- A call on a renderer: the performance to play and the stage to play it on. -/
structure Call (σ : Type) where
  stage : Stage (StateM σ)
  performance : Performance

/-- A renderer and the state of the stages after some calls. -/
def afterCalls [Limits] : List (Call σ) → Renderer → σ → Renderer × σ
  | [], r, s => (r, s)
  | call :: calls, r, s =>
    let rendered := (call.stage.render r call.performance).run s
    afterCalls calls rendered.1.2 rendered.2

/-- Every history of unbroken calls leaves a renderer reusable. -/
theorem reusable_afterCalls [Limits] {calls : List (Call σ)}
    (unbroken : ∀ call ∈ calls, call.stage.Unbroken)
    (free : r.beatRate.isWritable = true → r.state ≠ .streaming) (s : σ) :
    r.Reusable (afterCalls calls r s).1 := by
  induction calls generalizing r s with
  | nil => exact .refl free
  | cons call calls ih =>
      obtain ⟨first, others⟩ := List.forall_mem_cons.1 unbroken
      have reusable := reusable_render first free call.performance s
      exact reusable.trans (ih others reusable.ready _)

end Renderer

namespace Stage

variable {σ : Type} {r : Renderer}

/-- Whatever calls a renderer has seen, on stages where messages are lost, stops are requested and
tasks are given up, it is set up as it was, and it is not streaming between them if its rate can be
told.  While it streams it refuses every call and does nothing.  A call whose performance is refused
sends nothing, and the renderer has failed.  Every call that gets under way leaves it failed exactly
if a failure is the answer, stopped exactly if it answers and all messages of the queue were sent,
and interrupted otherwise.  And every call sends what it would send on a fresh renderer, gives the
same answer and leads to the same state.  Two kinds of calls send nothing and fail without a cause:
one that is refused for a cause that cannot be told leaves the renderer in the state in which it
was, and one that cannot tell the rate leaves it streaming. -/
theorem render_after_calls [Limits] {calls : List (Renderer.Call σ)}
    (unbroken : ∀ call ∈ calls, call.stage.Unbroken) (free : r.state ≠ .streaming) (s : σ) :
    let used := (Renderer.afterCalls calls r s).1
    (r.beatRate.isWritable = true → used.state ≠ .streaming) ∧
      used.beatRate = r.beatRate ∧ used.patchMap = r.patchMap ∧
      (∀ stage : Stage (StateM σ), ∀ busy : Renderer, busy.state = .streaming → ∀ p,
        stage.render busy p = pure (.error (.failed .alreadyStreaming), busy)) ∧
      (used.state ≠ .streaming →
        ∀ stage : Stage (StateM σ), stage.Unbroken → ∀ (p : Performance) (s : σ),
          let rendered := (stage.recorded.render used p).run (s, [])
          let anew := (stage.recorded.render r.fresh p).run (s, [])
          (stage.render used p).run s = (rendered.1, rendered.2.1) ∧
            (r.beatRate.isWritable = true → rendered.1.2.state ≠ .streaming) ∧
            (∀ cause, p.prepare r.patchMap = .error (.failed cause) →
              rendered = ((.error (.failed cause), { used with state := .failed }), s, [])) ∧
            (p.prepare r.patchMap = .error .unwritable →
              rendered = ((.error .unwritable, used), s, [])) ∧
            (∀ patchMap queue, p.prepare r.patchMap = .ok (patchMap, queue) →
              (r.beatRate.isWritable = false →
                rendered = ((.error .unwritable, used.streaming .silent), s, [])) ∧
              (r.beatRate.isWritable = true →
                (∀ start rest head w,
                  stage.recorded.AtHead used patchMap queue (s, []) start rest head w →
                    head.state = .streaming) ∧
                (rendered.1.2.state = .failed ↔
                  ∃ cause, rendered.1.1 = .error (.failed cause)) ∧
                (rendered.1.2.state = .stopped ↔ (∃ answered, rendered.1.1 = .ok answered) ∧
                  stage.PlaysAll used patchMap queue s) ∧
                (rendered.1.2.state = .interrupted ↔
                  rendered.1.2.state ≠ .failed ∧ rendered.1.2.state ≠ .stopped) ∧
                (∀ answered, rendered.1.1 = .ok answered → rendered.1.2.state = answered) ∧
                (rendered.1.2.state = .stopped →
                  ∃ sent, queue.map Scheduled.message? = sent.map some ∧
                    delivered rendered.2.2 = patchMap.programChanges ++ sent))) ∧
            rendered.1.1 = anew.1.1 ∧ rendered.2 = anew.2 ∧
            (p.prepare r.patchMap ≠ .error .unwritable →
              rendered.1.2.state = anew.1.2.state)) := by
  intro used
  have reusable : r.Reusable used := Renderer.reusable_afterCalls unbroken (fun _ => free) s
  refine ⟨reusable.free, reusable.beatRate, reusable.patchMap,
    fun stage busy streaming => stage.render_busy streaming, ?_⟩
  intro free stage whole p s rendered anew
  have recorded : (stage.render used p).run s = (rendered.1, rendered.2.1) :=
    (stage.recorded_render used p s []).symm
  have next := Renderer.reusable_render whole (fun _ => free) p s
  rw [recorded] at next
  have fresh := stage.recorded.render_fresh free p (s, [])
  rw [reusable.fresh_eq, reusable.patchMap] at fresh
  refine ⟨recorded, fun tellable => next.free (reusable.beatRate ▸ tellable), ?_, ?_, ?_, fresh⟩
  · intro cause refused
    rw [← reusable.patchMap] at refused
    exact congrFun (stage.recorded.render_failed free refused) (s, [])
  · intro untold
    rw [← reusable.patchMap] at untold
    exact congrFun (stage.recorded.render_unwritable free untold) (s, [])
  · intro patchMap queue prepared
    rw [← reusable.patchMap] at prepared
    rw [← reusable.beatRate]
    constructor
    · intro untold
      exact congrFun (stage.recorded.render_untold free prepared untold) (s, [])
    · intro tellable
      obtain ⟨settled, -⟩ := render_settles whole free prepared tellable s
      refine ⟨fun _ _ _ _ => AtHead.state_eq, settled.failed_iff, settled.stopped_iff,
        settled.interrupted_iff, fun _ => settled.eq_of_ok, ?_⟩
      intro stopped
      obtain ⟨-, plays⟩ := settled.stopped_iff.1 stopped
      exact plays.delivered_eq free prepared

/-- A stage on which every message is lost. -/
def deaf : Stage (StateM Nat) :=
  { impatient with send := fun _ pauses => (.failed "device disconnected", pauses) }

open Usual

/-- The pianist has failed on one stage, and is then interrupted on another one as if nothing had
been. -/
theorem echo_after_failure :
    let used := (Renderer.afterCalls [⟨deaf, majorThird⟩] pianist 0).1
    let rendered := (impatient.recorded.render used echo).run (0, [])
    let anew := (impatient.recorded.render pianist.fresh echo).run (0, [])
    deaf.Unbroken ∧ pianist.state ≠ .streaming ∧ impatient.Unbroken ∧
      echo.prepare pianist.patchMap = .ok (pianoAlone, echoQueue) ∧
      used.state = .failed ∧ rendered.1.1 = .ok .interrupted ∧
      rendered.1.2.state = .interrupted ∧ rendered.2 = anew.2 := by
  intro used rendered anew
  have unbroken : deaf.Unbroken := fun _ _ => nofun
  have whole : impatient.Unbroken := fun _ _ => nofun
  have free : pianist.state ≠ .streaming := nofun
  have failed : used.state = .failed := by
    show ((deaf.render pianist majorThird).run 0).1.2.state = .failed
    rw [render_eq rfl prepare_majorThird rfl]
    decide +kernel
  have answered : anew.1.1.toOption = some .interrupted := by
    show ((impatient.recorded.render pianist echo).run (0, [])).1.1.toOption = some .interrupted
    rw [render_eq rfl prepare_echo rfl]
    decide +kernel
  have again : used.state ≠ .streaming := failed ▸ nofun
  obtain ⟨-, -, -, -, next⟩ :=
    render_after_calls (List.forall_mem_singleton.2 unbroken :
      ∀ call ∈ [(⟨deaf, majorThird⟩ : Renderer.Call Nat)], call.stage.Unbroken) free 0
  obtain ⟨-, -, -, -, settled, same, sent, -⟩ := next again impatient whole echo 0
  obtain ⟨-, -, -, -, state, -⟩ := (settled pianoAlone echoQueue prepare_echo).2 rfl
  have interrupted : rendered.1.1 = .ok .interrupted := same.trans (eq_ok_of_toOption answered)
  exact ⟨unbroken, free, whole, prepare_echo, failed, interrupted, state _ interrupted, sent⟩

end Stage

/-! ## A call without an end -/

open Usual

/-- A renderer that is refused a performance because a silent note of it cannot be told is left in
the state in which it was, a new one as well as one that has stopped. -/
theorem Rehearsal.untold_call :
    let fresh : Renderer := { beatRate := .standard }
    let used := { fresh with state := .stopped }
    (world.recorded.render fresh Music.playedSilence).run (start {}, []) =
        ((.error .unwritable, fresh), start {}, []) ∧
      (world.recorded.render used Music.playedSilence).run (start {}, []) =
        ((.error .unwritable, used), start {}, []) ∧
      fresh.state = .idle ∧ used.state = .stopped := by
  intro fresh used
  have unspent : fresh.state ≠ .streaming := RenderState.noConfusion
  have stopped : used.state ≠ .streaming := RenderState.noConfusion
  refine ⟨?_, ?_, rfl, rfl⟩
  · exact congrFun (Stage.render_unwritable _ unspent Music.prepare_playedSilence) (start {}, [])
  · exact congrFun (Stage.render_unwritable _ stopped Music.prepare_playedSilence) (start {}, [])

end MusicAlgebra
