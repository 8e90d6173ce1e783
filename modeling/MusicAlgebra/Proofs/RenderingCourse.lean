import MusicAlgebra.Proofs.QueueOrder
import MusicAlgebra.Proofs.Traces

/-!
# The course of a rendering

A rendering that gets under way announces itself, selects its instruments, looks at the clock and
then takes the messages of its queue one after the other.  Between two messages it stands at the
head of its loop.  From whichever head one looks, the rest of the rendering is the same; so what
holds at the first head and is kept by every turn that sends a message holds at all of them, and
the streaming ends at the last.
-/

namespace MusicAlgebra

open Happening

namespace Renderer

/-- The renderer while it streams. -/
def streaming (r : Renderer) (sounding : Sounding) : Renderer :=
  { r with state := .streaming, sounding }

@[simp] theorem streaming_sounding (r : Renderer) (sounding : Sounding) :
    (r.streaming sounding).sounding = sounding := rfl

theorem accept_of_free {r : Renderer} (free : r.state ≠ .streaming) : r.accept = .ok () := by
  rw [accept, if_neg free]

/-- What is told before a queue is streamed. -/
def announcement (r : Renderer) (patchMap : PatchMap) (queue : List Scheduled) : Notice :=
  .info .renderer
    s!"Rendering {queue.length / 2} notes on {patchMap.size} channels at {r.beatRate.text} BPM"

end Renderer

namespace Stage

variable {σ α β : Type} {stage : Stage (StateM σ)} {r head : Renderer} {p : Performance}
variable {patchMap : PatchMap} {queue rest : List Scheduled} {s s' : σ} {start : Float}

theorem run_bind (program : StateM σ α) (next : α → StateM σ β) (s : σ) :
    (program >>= next).run s = (next (program.run s).1).run (program.run s).2 := rfl

/-- Once a performance is prepared, its queue is announced and played. -/
theorem render_eq_renderQueue [Limits] (accepted : r.accept = .ok ())
    (prepared : p.prepare r.patchMap = .ok (patchMap, queue)) :
    stage.render r p = stage.renderQueue patchMap queue (r.streaming .silent) := by
  unfold render
  rw [accepted, prepared]
  rfl

theorem render_eq [Limits] (accepted : r.accept = .ok ())
    (prepared : p.prepare r.patchMap = .ok (patchMap, queue))
    (tellable : r.beatRate.isWritable = true) :
    stage.render r p = (do
      stage.report (r.announcement patchMap queue)
      let (ending, r) ← stage.streamFrom patchMap queue (r.streaming .silent)
      stage.conclude ending r) := by
  rw [render_eq_renderQueue accepted prepared, renderQueue]
  exact if_pos tellable

/-- A rate that cannot be told leaves the renderer streaming, although nothing is sent. -/
theorem render_untold [Limits] (stage : Stage (StateM σ)) (free : r.state ≠ .streaming)
    (prepared : p.prepare r.patchMap = .ok (patchMap, queue))
    (untold : r.beatRate.isWritable = false) :
    stage.render r p = pure (.error .unwritable, r.streaming .silent) := by
  rw [render_eq_renderQueue (Renderer.accept_of_free free) prepared, renderQueue]
  exact if_neg (Bool.eq_false_iff.1 untold)

/-- A rendering is about to take its next message.  At such a moment there are the clock at which
it started, the messages that are left, the renderer and the state of the stage. -/
inductive AtHead [Limits] (stage : Stage (StateM σ)) (r : Renderer) (patchMap : PatchMap)
    (queue : List Scheduled) (s : σ) : Float → List Scheduled → Renderer → σ → Prop where
  | first {announced selected begun : σ} {start : Float} :
      r.beatRate.isWritable = true →
      (stage.report (r.announcement patchMap queue)).run s = ((), announced) →
      (stage.sendAll patchMap.programChanges).run announced = (.sent, selected) →
      stage.now.run selected = (start, begun) →
      AtHead stage r patchMap queue s start queue (r.streaming .silent) begun
  | next {start : Float} {next : Scheduled} {rest : List Scheduled} {head : Renderer}
      {before after : σ} {m : Message} :
      AtHead stage r patchMap queue s start (next :: rest) head before →
      (stage.turn start head next).run before = (.ok m, after) →
      AtHead stage r patchMap queue s start rest (head.after m) after

namespace AtHead

/-- From every head the rest of the rendering is the same. -/
theorem run_eq [Limits] (atHead : stage.AtHead r patchMap queue s start rest head s')
    (accepted : r.accept = .ok ()) (prepared : p.prepare r.patchMap = .ok (patchMap, queue)) :
    (stage.render r p).run s =
      (do
        let (ending, r) ← stage.stream start rest head
        stage.conclude ending r : StateM σ _).run s' := by
  induction atHead with
  | first tellable announced selected begun =>
      rw [render_eq accepted prepared tellable, run_bind, announced, run_bind, streamFrom, run_bind,
        selected, run_bind, begun, run_bind]
  | next before taken ih =>
      rw [ih, run_bind, stream, run_bind, taken, run_bind]

/-- The messages that are left at a head are the last ones of the queue. -/
theorem isSuffix [Limits] (atHead : stage.AtHead r patchMap queue s start rest head s') :
    rest <:+ queue := by
  induction atHead with
  | first => exact List.suffix_refl queue
  | next before taken ih => exact (List.suffix_cons _ _).trans ih

/-- A rendering has stood at every head before the one where it stands. -/
theorem earlier [Limits] (atHead : stage.AtHead r patchMap queue s start rest head s')
    {longer : List Scheduled} (left : rest <:+ longer) (inside : longer <:+ queue) :
    ∃ past before, stage.AtHead r patchMap queue s start longer past before := by
  induction atHead with
  | first tellable announced selected begun =>
      obtain rfl := inside.eq_of_length_le left.length_le
      exact ⟨_, _, .first tellable announced selected begun⟩
  | @next _ next rest _ _ _ _ before taken ih =>
      -- Two last parts of one queue are the same if they are equally long.
      rcases left.length_le.eq_or_lt with same | more
      · obtain rfl := left.eq_of_length same
        exact ⟨_, _, before.next taken⟩
      · exact ih (List.suffix_of_suffix_length_le before.isSuffix inside more)

end AtHead

/-! ## The end of the streaming -/

/-- The streaming of a rendering has ended: the instruments could not be selected, nothing was left,
or the turn of the next message came to nothing. -/
inductive Streamed [Limits] (stage : Stage (StateM σ)) (r : Renderer) (patchMap : PatchMap)
    (queue : List Scheduled) (s : σ) : Ending → Renderer → σ → Prop where
  | unselected {announced after : σ} {reason : String} :
      r.beatRate.isWritable = true →
      (stage.report (r.announcement patchMap queue)).run s = ((), announced) →
      (stage.sendAll patchMap.programChanges).run announced = (.failed reason, after) →
      Streamed stage r patchMap queue s (.faulty reason) (r.streaming .silent) after
  | brokenOff {announced after : σ} :
      r.beatRate.isWritable = true →
      (stage.report (r.announcement patchMap queue)).run s = ((), announced) →
      (stage.sendAll patchMap.programChanges).run announced = (.brokenOff, after) →
      Streamed stage r patchMap queue s .brokenOff (r.streaming .silent) after
  | played {start : Float} {head : Renderer} {after : σ} :
      stage.AtHead r patchMap queue s start [] head after →
      Streamed stage r patchMap queue s .played head after
  | ended {start : Float} {next : Scheduled} {rest : List Scheduled} {head : Renderer}
      {before after : σ} {ending : Ending} :
      stage.AtHead r patchMap queue s start (next :: rest) head before →
      (stage.turn start head next).run before = (.error ending, after) →
      Streamed stage r patchMap queue s ending head after

theorem AtHead.exists_streamed [Limits]
    (atHead : stage.AtHead r patchMap queue s start rest head s') :
    ∃ ending last after, stage.Streamed r patchMap queue s ending last after ∧
      (stage.stream start rest head).run s' = ((ending, last), after) := by
  -- Every turn that sends its message leads to a head with one message less.
  induction rest generalizing head s' with
  | nil => exact ⟨.played, head, s', .played atHead, rfl⟩
  | cons next rest ih =>
      rw [stream, run_bind]
      cases turned : (stage.turn start head next).run s' with
      | mk outcome after =>
          cases outcome with
          | error ending => exact ⟨ending, head, after, .ended atHead turned, rfl⟩
          | ok m => exact ih (atHead.next turned)

/-- A rendering that gets under way comes to the end of its streaming, and then concludes. -/
theorem exists_streamed [Limits] (accepted : r.accept = .ok ())
    (prepared : p.prepare r.patchMap = .ok (patchMap, queue))
    (tellable : r.beatRate.isWritable = true) (s : σ) :
    ∃ ending last after, stage.Streamed r patchMap queue s ending last after ∧
      (stage.render r p).run s = (stage.conclude ending last).run after := by
  obtain ⟨announced, announcing⟩ : ∃ announced,
      (stage.report (r.announcement patchMap queue)).run s = ((), announced) := ⟨_, rfl⟩
  obtain ⟨delivery, selected, selecting⟩ : ∃ delivery selected,
      (stage.sendAll patchMap.programChanges).run announced = (delivery, selected) := ⟨_, _, rfl⟩
  cases delivery with
  | sent =>
      obtain ⟨start, begun, looking⟩ : ∃ start begun,
        stage.now.run selected = (start, begun) := ⟨_, _, rfl⟩
      have atHead := AtHead.first tellable announcing selecting looking
      obtain ⟨ending, last, after, streamed, streaming⟩ := atHead.exists_streamed
      refine ⟨ending, last, after, streamed, ?_⟩
      rw [atHead.run_eq accepted prepared, run_bind, streaming]
  | failed reason =>
      refine ⟨_, _, selected, .unselected tellable announcing selecting, ?_⟩
      rw [render_eq accepted prepared tellable, run_bind, announcing, run_bind, streamFrom,
        run_bind, selecting]
      rfl
  | brokenOff =>
      refine ⟨_, _, selected, .brokenOff tellable announcing selecting, ?_⟩
      rw [render_eq accepted prepared tellable, run_bind, announcing, run_bind, streamFrom,
        run_bind, selecting]
      rfl

/-! ## The record of the streaming -/

/-- What a record says at a head: the instruments are selected, the messages before the ones that
are left have arrived, nothing else was sent and no stop was noticed. -/
structure Progress (patchMap : PatchMap) (before : List Scheduled) (sent : List Message)
    (record : List Happening) : Prop where
  sendable : before.map Scheduled.message? = sent.map some
  tried : tried record = patchMap.programChanges ++ sent
  delivered : delivered record = patchMap.programChanges ++ sent
  unstopped : ∀ h ∈ record, h.isStop = false

variable {before : List Scheduled} {sent : List Message} {record new : List Happening}
variable {w : σ × List Happening}

theorem AtHead.progress [Limits]
    (atHead : stage.recorded.AtHead r patchMap queue (s, []) start rest head w) :
    ∃ before sent, queue = before ++ rest ∧ Progress patchMap before sent w.2 ∧
      head = r.streaming (Sounding.silent.afterAll sent) := by
  induction atHead with
  | first tellable announced selected begun =>
      obtain ⟨_, grown, -, rfl⟩ := (stage.report_leaves _).of_run announced
      obtain ⟨_, grownAgain, -, attempted⟩ := (stage.sendAll_leaves _).of_run selected
      obtain ⟨_, unchanged, -, rfl⟩ := stage.now_leaves.of_run begun
      obtain rfl := attempted.eq_arrivals
      rw [grownAgain, grown] at unchanged
      simp only [List.append_nil, List.nil_append] at unchanged
      refine ⟨[], [], rfl, ⟨rfl, ?_, ?_, ?_⟩, rfl⟩
      · rw [unchanged, tried_arrivals, List.append_nil]
      · rw [unchanged, delivered_arrivals, List.append_nil]
      · rw [unchanged]
        exact attempted.isStop_eq_false
  | @next _ next _ _ _ _ m _ taken ih =>
      obtain ⟨before, sent, rfl, progress, rfl⟩ := ih
      obtain ⟨new, grown, -, turned⟩ := (stage.turn_leaves _ _ _).of_run taken
      refine ⟨before ++ [next], sent ++ [m], List.append_cons .., ⟨?_, ?_, ?_, ?_⟩, ?_⟩
      · simp [progress.sendable, turned.message?_eq]
      · simp [grown, progress.tried, turned.tried_eq]
      · simp [grown, progress.delivered, turned.delivered_eq]
      · rw [grown]
        exact List.forall_mem_append.2 ⟨progress.unstopped, turned.isStop_eq_false⟩
      · rw [Sounding.afterAll_concat]
        rfl

/-- When everything was played, the rendering stands at a head where nothing is left. -/
theorem Streamed.atHead_of_played [Limits] {last : Renderer}
    (streamed : stage.recorded.Streamed r patchMap queue (s, []) .played last w) :
    ∃ start, stage.recorded.AtHead r patchMap queue (s, []) start [] last w := by
  cases streamed with
  | played atHead => exact ⟨_, atHead⟩
  | ended atHead failed =>
      -- No turn that goes wrong says that everything was played.
      obtain ⟨_, _, _, turned⟩ := (stage.turn_leaves _ _ _).of_run failed
      cases turned

/-- What a record says when the streaming has ended: of the notes in it some front part of the queue
has arrived, and a stop that was noticed is the last thing in it. -/
structure Account (queue before : List Scheduled) (sent : List Message) (record : List Happening) :
    Prop where
  front : before <+: queue
  sendable : before.map Scheduled.message? = sent.map some
  tally : ∀ action channel note, Message.tally action channel note (delivered record) =
    Message.tally action channel note sent
  stopLast : ∀ h ∈ record.dropLast, h.isStop = false

/-- Where a stop was noticed, the streaming ends. -/
theorem Account.eq_of_stop {earlier later : List Happening} {stop : Happening}
    (account : Account queue before sent record) (unstopped : ∀ h ∈ new, h.isStop = false)
    (split : record ++ new = earlier ++ stop :: later) (stops : stop.isStop = true) :
    record = earlier ++ [stop] ∧ later = new := by
  have absent : stop ∉ new := fun member => by simp [unstopped stop member] at stops
  rcases List.append_eq_append_iff.1 split with ⟨between, -, inNew⟩ | ⟨between, inRecord, others⟩
  · exact absurd (inNew ▸ List.mem_append_right between List.mem_cons_self) absent
  · cases between with
    | nil =>
        rw [List.nil_append] at others
        exact absurd (others ▸ List.mem_cons_self) absent
    | cons first between =>
        obtain ⟨rfl, rfl⟩ := List.cons_eq_cons.1 others
        -- Anything of the record behind the stop would make it one that is not the last.
        cases between with
        | nil => exact ⟨inRecord, rfl⟩
        | cons second between =>
            have early : stop ∈ record.dropLast := by
              rw [inRecord, List.dropLast_append_cons, List.dropLast_cons_cons]
              exact List.mem_append_right earlier List.mem_cons_self
            simp [account.stopLast stop early] at stops

/-- A turn that ends the streaming adds nothing that counts. -/
theorem Progress.account (progress : Progress patchMap before sent record)
    (ended : Happening.delivered new = []) (stopLast : ∀ h ∈ new.dropLast, h.isStop = false) :
    Account (before ++ rest) before sent (record ++ new) where
  front := List.prefix_append before rest
  sendable := progress.sendable
  tally action channel note := by simp [progress.delivered, ended]
  stopLast := isStop_of_mem_dropLast_append progress.unstopped stopLast

/-- Selecting the instruments attacks and releases nothing. -/
theorem account_of_selecting {delivery : Delivery}
    (attempted : Attempted patchMap.programChanges new delivery) (queue : List Scheduled) :
    Account queue [] [] new where
  front := List.nil_prefix
  sendable := rfl
  tally action channel note := by
    have few : Message.tally action channel note (delivered new) ≤
        Message.tally action channel note patchMap.programChanges :=
      Message.tally_le_of_isPrefix attempted.delivered_isPrefix
    rw [Message.tally_programChanges] at few
    exact Nat.le_zero.1 few
  stopLast h member := attempted.isStop_eq_false h (List.dropLast_subset _ member)

theorem Streamed.exists_account [Limits] {ending : Ending} {last : Renderer}
    (streamed : stage.recorded.Streamed r patchMap queue (s, []) ending last w) :
    ∃ before sent, Account queue before sent w.2 ∧
      last = r.streaming (Sounding.silent.afterAll sent) := by
  cases streamed with
  | unselected tellable announced selected | brokenOff tellable announced selected =>
      obtain ⟨_, grown, -, rfl⟩ := (stage.report_leaves _).of_run announced
      obtain ⟨new, grownAgain, -, attempted⟩ := (stage.sendAll_leaves _).of_run selected
      rw [grown, List.append_nil, List.nil_append] at grownAgain
      rw [grownAgain]
      exact ⟨[], [], account_of_selecting attempted queue, rfl⟩
  | played atHead =>
      obtain ⟨before, sent, rfl, progress, rfl⟩ := atHead.progress
      rw [← List.append_nil w.2]
      exact ⟨before, sent, progress.account rfl nofun, rfl⟩
  | ended atHead failed =>
      obtain ⟨before, sent, rfl, progress, rfl⟩ := atHead.progress
      obtain ⟨new, grown, -, turned⟩ := (stage.turn_leaves _ _ _).of_run failed
      rw [grown]
      exact ⟨before, sent,
        progress.account turned.delivered_eq_nil turned.isStop_of_mem_dropLast, rfl⟩

/-- The record of a rendering that gets under way is that of its streaming and then that of its
conclusion. -/
theorem exists_course [Limits] (stage : Stage (StateM σ)) (free : r.state ≠ .streaming)
    (prepared : p.prepare r.patchMap = .ok (patchMap, queue))
    (tellable : r.beatRate.isWritable = true) (s : σ) :
    ∃ ending last w released, stage.recorded.Streamed r patchMap queue (s, []) ending last w ∧
      Concluded last ending released ((stage.recorded.render r p).run (s, [])).1 ∧
      ((stage.recorded.render r p).run (s, [])).2.2 = w.2 ++ released ∧
      ∀ h ∈ released, stage.Shows h := by
  obtain ⟨ending, last, w, streamed, concluding⟩ :=
    exists_streamed (Renderer.accept_of_free free) prepared tellable (s, [])
  obtain ⟨released, grown, shown, concluded⟩ := stage.conclude_leaves ending last w.1 w.2
  rw [concluding]
  exact ⟨ending, last, w, released, streamed, concluded, grown, shown⟩

end Stage

end MusicAlgebra
