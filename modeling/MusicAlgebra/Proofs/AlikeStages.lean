import MusicAlgebra.Midi.Rendering

/-!
# Alike stages

A renderer asks its stage for one thing after the other and goes on with the answers.  It does not
look at the monad in which all this happens.  So where everything that can be asked of two stages is
alike, in any sense that survives composition, rendering on the two of them is alike as well.
-/

namespace MusicAlgebra

/-- A sense in which programs of two monads are alike, which composition keeps. -/
structure Likeness (m n : Type → Type) [Monad m] [Monad n] where
  alike : {α : Type} → m α → n α → Prop
  pure {α : Type} (a : α) : alike (Pure.pure a) (Pure.pure a)
  bind {α β : Type} {first : m α} {second : n α} {next : α → m β} {other : α → n β} :
    alike first second → (∀ a, alike (next a) (other a)) →
      alike (first >>= next) (second >>= other)

namespace Stage

variable {m n : Type → Type} [Monad m] [Monad n]

/-- Whatever a renderer can ask of two stages is alike. -/
structure Alike (likeness : Likeness m n) (stage : Stage m) (other : Stage n) : Prop where
  send (message : Message) : likeness.alike (stage.send message) (other.send message)
  pause (delay : Float) (r : Renderer) : likeness.alike (stage.pause delay r) (other.pause delay r)
  now : likeness.alike stage.now other.now
  stopRequested : likeness.alike stage.stopRequested other.stopRequested
  report (notice : Notice) : likeness.alike (stage.report notice) (other.report notice)

namespace Alike

variable {likeness : Likeness m n} {stage : Stage m} {other : Stage n}

/-! ## Sending and releasing -/

theorem sendAll (alike : Alike likeness stage other) (messages : List Message) :
    likeness.alike (stage.sendAll messages) (other.sendAll messages) := by
  induction messages with
  | nil => exact likeness.pure _
  | cons message messages ih =>
      apply likeness.bind (alike.send message)
      intro delivery
      cases delivery with
      | sent => exact ih
      | failed reason | brokenOff => exact likeness.pure _

theorem flush (alike : Alike likeness stage other)
    (counts : List ((Channel × DataByte) × Nat)) :
    likeness.alike (stage.flush counts) (other.flush counts) := by
  induction counts with
  | nil => exact likeness.pure _
  | cons entry others ih =>
      obtain ⟨⟨channel, note⟩, count⟩ := entry
      apply likeness.bind (alike.sendAll _)
      intro delivery
      cases delivery with
      | sent => exact ih
      | failed reason | brokenOff => exact likeness.pure _

theorem quieten (alike : Alike likeness stage other) (r : Renderer) :
    likeness.alike (stage.quieten r) (other.quieten r) :=
  likeness.bind (alike.flush _) fun _ => likeness.pure _

/-! ## Streaming -/

theorem idle (alike : Alike likeness stage other) (r : Renderer) (delay : Float) :
    likeness.alike (stage.idle r delay) (other.idle r delay) := by
  unfold Stage.idle
  split
  · exact alike.pause delay r
  · exact likeness.pure _

theorem deliver (alike : Alike likeness stage other) (next : Scheduled) :
    likeness.alike (stage.deliver next) (other.deliver next) := by
  apply likeness.bind alike.stopRequested
  intro stop
  cases stop with
  | true => exact likeness.pure _
  | false =>
      simp only [Bool.false_eq_true, if_false]
      cases next.message? with
      | none => exact likeness.pure _
      | some message =>
          apply likeness.bind (alike.send message)
          intro delivery
          cases delivery <;> exact likeness.pure _

theorem turn (alike : Alike likeness stage other) (start : Float) (r : Renderer)
    (next : Scheduled) : likeness.alike (stage.turn start r next) (other.turn start r next) := by
  apply likeness.bind alike.stopRequested
  intro stop
  cases stop with
  | true => exact likeness.pure _
  | false =>
      simp only [Bool.false_eq_true, if_false]
      cases r.beatRate.seconds next.time with
      | error fault => exact likeness.pure _
      | ok seconds =>
          apply likeness.bind alike.now
          intro now
          apply likeness.bind (alike.idle r _)
          intro waking
          cases waking with
          | elapsed => exact alike.deliver next
          | stopRequested | abandoned => exact likeness.pure _

theorem stream (alike : Alike likeness stage other) (start : Float) (queue : List Scheduled)
    (r : Renderer) :
    likeness.alike (stage.stream start queue r) (other.stream start queue r) := by
  induction queue generalizing r with
  | nil => exact likeness.pure _
  | cons next queue ih =>
      apply likeness.bind (alike.turn start r next)
      intro outcome
      cases outcome with
      | ok message => exact ih (r.after message)
      | error ending => exact likeness.pure _

theorem streamFrom (alike : Alike likeness stage other) (patchMap : PatchMap)
    (queue : List Scheduled) (r : Renderer) :
    likeness.alike (stage.streamFrom patchMap queue r) (other.streamFrom patchMap queue r) := by
  apply likeness.bind (alike.sendAll _)
  intro delivery
  cases delivery with
  | sent => exact likeness.bind alike.now fun start => alike.stream start queue r
  | failed reason | brokenOff => exact likeness.pure _

/-! ## Rendering -/

theorem quietenAfter (alike : Alike likeness stage other) (r : Renderer) (state : RenderState)
    (halt : Halt) :
    likeness.alike (stage.quietenAfter r state halt) (other.quietenAfter r state halt) := by
  apply likeness.bind (alike.quieten r)
  rintro ⟨delivery, left⟩
  cases delivery with
  | sent | brokenOff => exact likeness.pure _
  | failed reason => exact likeness.bind (alike.report _) fun _ => likeness.pure _

theorem conclude (alike : Alike likeness stage other) (ending : Ending) (r : Renderer) :
    likeness.alike (stage.conclude ending r) (other.conclude ending r) := by
  cases ending with
  | played => exact likeness.bind (alike.report _) fun _ => likeness.pure _
  | stopped =>
      apply likeness.bind (alike.quieten r)
      rintro ⟨delivery, left⟩
      cases delivery with
      | sent => exact likeness.bind (alike.report _) fun _ => likeness.pure _
      | failed reason | brokenOff => exact likeness.pure _
  | abandoned => exact likeness.bind (alike.report _) fun _ => alike.quietenAfter _ _ _
  | brokenOff => exact likeness.pure _
  | faulty reason => exact alike.quietenAfter _ _ _

theorem renderQueue [Limits] (alike : Alike likeness stage other) (patchMap : PatchMap)
    (queue : List Scheduled) (r : Renderer) :
    likeness.alike (stage.renderQueue patchMap queue r) (other.renderQueue patchMap queue r) := by
  unfold Stage.renderQueue
  split
  · apply likeness.bind (alike.report _)
    intro reported
    apply likeness.bind (alike.streamFrom _ _ _)
    rintro ⟨ending, streamed⟩
    exact alike.conclude ending streamed
  · exact likeness.pure _

/-- On alike stages a performance is played alike. -/
theorem render [Limits] (alike : Alike likeness stage other) (r : Renderer) (p : Performance) :
    likeness.alike (stage.render r p) (other.render r p) := by
  unfold Stage.render
  cases r.accept with
  | error cause => exact likeness.pure _
  | ok accepted =>
      cases p.prepare r.patchMap with
      | error halt => cases halt <;> exact likeness.pure _
      | ok prepared =>
          obtain ⟨patchMap, queue⟩ := prepared
          exact alike.renderQueue patchMap queue _

end Alike

end Stage

end MusicAlgebra
