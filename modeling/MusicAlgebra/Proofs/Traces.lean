import MusicAlgebra.Proofs.Record
import MusicAlgebra.Proofs.SoundingNotes

/-!
# What a rendering leaves in its record

Whatever state a stage is in, each part of a rendering adds something to the record that depends on
the answers of the stage alone.  Trying to send messages ends with the first that does not arrive.
A turn either sends its message or ends the streaming, and a stop that a turn learns of is the last
thing that it leaves behind.  When streaming has ended the releases of all sounding notes are tried,
unless everything was played or the user broke the program off.
-/

namespace MusicAlgebra

open Happening

/-! ## Records -/

namespace Happening

variable {messages : List Message} {waits : List Happening} {m : Message} {delivery : Delivery}

/-- Whether something that happened lets the renderer go on without sending anything. -/
def passes : Happening → Bool
  | asked stop => !stop
  | waited .elapsed => true
  | _ => false

theorem tried_of_passes (quiet : ∀ h ∈ waits, h.passes = true) : tried waits = [] := by
  apply List.filterMap_eq_nil_iff.2
  intro h member
  have passed := quiet h member
  cases h with
  | sent message delivery => cases passed
  | asked stop | waited waking => rfl

theorem delivered_of_passes (quiet : ∀ h ∈ waits, h.passes = true) : delivered waits = [] := by
  apply List.filterMap_eq_nil_iff.2
  intro h member
  have passed := quiet h member
  cases h with
  | sent message delivery => cases passed
  | asked stop | waited waking => rfl

theorem isStop_of_passes {h : Happening} (passed : h.passes = true) : h.isStop = false := by
  cases h with
  | sent message delivery => cases passed
  | asked stop => cases stop <;> [rfl; cases passed]
  | waited waking => cases waking <;> [rfl; cases passed; cases passed]

/-- What comes after a record without a stop brings in no stop before its last. -/
theorem isStop_of_mem_dropLast_append {front back : List Happening}
    (unstopped : ∀ h ∈ front, h.isStop = false)
    (stopLast : ∀ h ∈ back.dropLast, h.isStop = false) :
    ∀ h ∈ (front ++ back).dropLast, h.isStop = false := by
  rw [List.dropLast_append]
  split
  · exact fun h member => unstopped h (List.dropLast_subset _ member)
  · exact List.forall_mem_append.2 ⟨unstopped, stopLast⟩

theorem delivered_stop {stop : Happening} (stops : stop.isStop = true) : delivered [stop] = [] := by
  cases stop with
  | sent message delivery => cases stops
  | asked stop | waited waking => rfl

@[simp] theorem tried_sent (m : Message) (delivery : Delivery) :
    tried [sent m delivery] = [m] := rfl

@[simp] theorem delivered_sent (m : Message) : delivered [sent m .sent] = [m] := rfl

/-- Messages were tried in turn, until one did not arrive or all had arrived. -/
inductive Attempted (messages : List Message) : List Happening → Delivery → Prop where
  | all : Attempted messages (arrivals messages) .sent
  | lost {before : List Message} {m : Message} {after : List Message} {delivery : Delivery} :
      messages = before ++ m :: after → delivery ≠ .sent →
      Attempted messages (arrivals before ++ [sent m delivery]) delivery

namespace Attempted

variable {new : List Happening}

theorem cons (attempted : Attempted messages new delivery) :
    Attempted (m :: messages) (sent m .sent :: new) delivery := by
  cases attempted with
  | all => exact .all
  | @lost before last after _ split missed =>
      subst split
      exact @lost _ (m :: before) last after _ rfl missed

/-- After messages that all arrived, further ones are tried. -/
theorem append_left (attempted : Attempted messages new delivery) (first : List Message) :
    Attempted (first ++ messages) (arrivals first ++ new) delivery := by
  induction first with
  | nil => exact attempted
  | cons m first ih => exact ih.cons

/-- After a message that did not arrive, no further ones are tried. -/
theorem append_right (attempted : Attempted messages new delivery) (missed : delivery ≠ .sent)
    (others : List Message) : Attempted (messages ++ others) new delivery := by
  cases attempted with
  | all => exact absurd rfl missed
  | @lost before last after _ split missed =>
      subst split
      exact .lost (List.append_assoc before (last :: after) others) missed

theorem eq_arrivals (attempted : Attempted messages new .sent) : new = arrivals messages := by
  cases attempted with
  | all => rfl
  | lost split missed => exact absurd rfl missed

/-- What arrives of messages is a front part of them. -/
theorem delivered_isPrefix (attempted : Attempted messages new delivery) :
    delivered new <+: messages := by
  cases attempted with
  | all => exact (delivered_arrivals messages).symm ▸ List.prefix_refl messages
  | @lost before last after delivery split missed =>
      have silent : delivered [sent last delivery] = [] := by
        cases delivery with
        | sent => exact absurd rfl missed
        | failed reason | brokenOff => rfl
      rw [split, delivered_append, delivered_arrivals, silent, List.append_nil]
      exact List.prefix_append before _

theorem isStop_eq_false (attempted : Attempted messages new delivery) :
    ∀ h ∈ new, h.isStop = false := by
  have arrived : ∀ messages : List Message, ∀ h ∈ arrivals messages, h.isStop = false := by
    intro messages h member
    obtain ⟨m, -, rfl⟩ := List.mem_map.1 member
    rfl
  intro h member
  cases attempted with
  | all => exact arrived messages h member
  | lost split missed =>
      rcases List.mem_append.1 member with member | member
      · exact arrived _ h member
      · rw [List.mem_singleton.1 member]
        rfl

end Attempted

end Happening

/-! ## Programs that keep a record -/

namespace Stage

variable {σ α β : Type}

/-- What can happen on a stage. -/
inductive Shows (stage : Stage (StateM σ)) : Happening → Prop where
  | sent (m : Message) (s : σ) : stage.Shows (.sent m ((stage.send m).run s).1)
  | asked (s : σ) : stage.Shows (.asked (stage.stopRequested.run s).1)
  | waited (delay : Float) (r : Renderer) (s : σ) :
      stage.Shows (.waited ((stage.pause delay r).run s).1)

/-- Wherever it starts, a program adds to the record what can happen on the stage, and what it adds
fits its answer. -/
def Leaves (stage : Stage (StateM σ)) (program : StateM (σ × List Happening) α)
    (trace : List Happening → α → Prop) : Prop :=
  ∀ s record, ∃ new, (program.run (s, record)).2.2 = record ++ new ∧
    (∀ h ∈ new, stage.Shows h) ∧ trace new (program.run (s, record)).1

variable {stage : Stage (StateM σ)} {trace weaker : List Happening → α → Prop}
variable {program : StateM (σ × List Happening) α}

namespace Leaves

theorem pure {a : α} (fits : trace [] a) : stage.Leaves (Pure.pure a) trace := by
  intro s record
  exact ⟨[], (List.append_nil record).symm, nofun, fits⟩

theorem bind {next : α → StateM (σ × List Happening) β} {later : List Happening → β → Prop}
    (started : stage.Leaves program trace)
    (continued : ∀ before a, trace before a →
      stage.Leaves (next a) fun after b => later (before ++ after) b) :
    stage.Leaves (program >>= next) later := by
  intro s record
  obtain ⟨before, grown, shown, fits⟩ := started s record
  obtain ⟨after, grownAgain, shownAgain, fitsAgain⟩ :=
    continued before _ fits (program.run (s, record)).2.1 (program.run (s, record)).2.2
  refine ⟨before ++ after, ?_, ?_, fitsAgain⟩
  · rw [← List.append_assoc, ← grown]
    exact grownAgain
  · intro h member
    exact (List.mem_append.1 member).elim (shown h) (shownAgain h)

theorem mono (leaves : stage.Leaves program trace) (weaken : ∀ new a, trace new a → weaker new a) :
    stage.Leaves program weaker := by
  intro s record
  obtain ⟨new, grown, shown, fits⟩ := leaves s record
  exact ⟨new, grown, shown, weaken new _ fits⟩

/-- What one run of the program adds to the record. -/
theorem of_run {before after : σ × List Happening} {a : α} (leaves : stage.Leaves program trace)
    (ran : program.run before = (a, after)) :
    ∃ new, after.2 = before.2 ++ new ∧ (∀ h ∈ new, stage.Shows h) ∧ trace new a := by
  obtain ⟨new, grown, shown, fits⟩ := leaves before.1 before.2
  rw [ran] at grown fits
  exact ⟨new, grown, shown, fits⟩

end Leaves

section Actions

variable (stage)

theorem send_leaves (m : Message) :
    stage.Leaves (stage.recorded.send m) fun new delivery => new = [.sent m delivery] := by
  intro s record
  refine ⟨[.sent m ((stage.send m).run s).1], rfl, ?_, rfl⟩
  intro h member
  rw [List.mem_singleton.1 member]
  exact .sent m s

theorem stopRequested_leaves :
    stage.Leaves stage.recorded.stopRequested fun new stop => new = [.asked stop] := by
  intro s record
  refine ⟨[.asked (stage.stopRequested.run s).1], rfl, ?_, rfl⟩
  intro h member
  rw [List.mem_singleton.1 member]
  exact .asked s

theorem pause_leaves (delay : Float) (r : Renderer) :
    stage.Leaves (stage.recorded.pause delay r) fun new waking => new = [.waited waking] := by
  intro s record
  refine ⟨[.waited ((stage.pause delay r).run s).1], rfl, ?_, rfl⟩
  intro h member
  rw [List.mem_singleton.1 member]
  exact .waited delay r s

theorem now_leaves : stage.Leaves stage.recorded.now fun new _ => new = [] :=
  fun _ record => ⟨[], (List.append_nil record).symm, nofun, rfl⟩

theorem report_leaves (notice : Notice) :
    stage.Leaves (stage.recorded.report notice) fun new _ => new = [] :=
  fun _ record => ⟨[], (List.append_nil record).symm, nofun, rfl⟩

end Actions

/-! ## Sending and releasing -/

theorem sendAll_leaves (stage : Stage (StateM σ)) (messages : List Message) :
    stage.Leaves (stage.recorded.sendAll messages) (Attempted messages) := by
  induction messages with
  | nil => exact .pure .all
  | cons m messages ih =>
      apply (stage.send_leaves m).bind
      rintro _ delivery rfl
      cases delivery with
      | sent => exact ih.mono fun new delivery attempted => attempted.cons
      | failed reason | brokenOff => exact .pure (@Attempted.lost _ [] m messages _ rfl nofun)

/-- Notes are released one after the other, until a release does not arrive. -/
theorem flush_leaves (stage : Stage (StateM σ)) (counts : List ((Channel × DataByte) × Nat)) :
    stage.Leaves (stage.recorded.flush counts) fun new (delivery, left) =>
      Attempted (Sounding.releases ⟨counts⟩) new delivery ∧ (delivery = .sent → left = []) := by
  induction counts with
  | nil => exact .pure ⟨.all, fun _ => rfl⟩
  | cons entry others ih =>
      obtain ⟨⟨channel, note⟩, count⟩ := entry
      apply (stage.sendAll_leaves _).bind
      intro before delivery attempted
      cases delivery with
      | sent =>
          rw [attempted.eq_arrivals]
          exact ih.mono fun after (delivery, left) ⟨others, cleared⟩ =>
            ⟨others.append_left _, cleared⟩
      | failed reason | brokenOff =>
          apply Leaves.pure
          rw [List.append_nil]
          exact ⟨attempted.append_right nofun _, nofun⟩

theorem quieten_leaves (stage : Stage (StateM σ)) (r : Renderer) :
    stage.Leaves (stage.recorded.quieten r) fun new (delivery, quiet) =>
      ∃ left, quiet = { r with sounding := left } ∧
        Attempted r.sounding.releases new delivery ∧ (delivery = .sent → left = .silent) := by
  apply (stage.flush_leaves r.sounding.counts).bind
  rintro new ⟨delivery, left⟩ ⟨attempted, cleared⟩
  apply Leaves.pure
  rw [List.append_nil]
  exact ⟨⟨left⟩, rfl, attempted, fun arrived => congrArg Sounding.mk (cleared arrived)⟩

/-! ## Turns -/

/-- What a turn leaves behind, by what comes of it. -/
inductive Turned (rate : BeatRate) (next : Scheduled) :
    List Happening → Except Ending Message → Prop where
  | taken {waits : List Happening} {m : Message} :
      (∀ h ∈ waits, h.passes = true) → next.message? = some m →
      Turned rate next (waits ++ [.sent m .sent]) (.ok m)
  | stopped {waits : List Happening} {stop : Happening} :
      (∀ h ∈ waits, h.passes = true) → stop.isStop = true →
      Turned rate next (waits ++ [stop]) (.error .stopped)
  | abandoned {waits : List Happening} :
      (∀ h ∈ waits, h.passes = true) →
      Turned rate next (waits ++ [.waited .abandoned]) (.error .abandoned)
  | unplaced {waits : List Happening} {fault : TimeFault} :
      (∀ h ∈ waits, h.passes = true) → rate.seconds next.time = .error fault →
      Turned rate next waits (.error (.faulty fault.message))
  | unsendable {waits : List Happening} :
      (∀ h ∈ waits, h.passes = true) → next.message? = none →
      Turned rate next waits (.error (.faulty Message.dataByteReason))
  | lost {waits : List Happening} {m : Message} {reason : String} :
      (∀ h ∈ waits, h.passes = true) → next.message? = some m →
      Turned rate next (waits ++ [.sent m (.failed reason)]) (.error (.faulty reason))
  | brokenOff {waits : List Happening} {m : Message} :
      (∀ h ∈ waits, h.passes = true) → next.message? = some m →
      Turned rate next (waits ++ [.sent m .brokenOff]) (.error .brokenOff)

namespace Turned

variable {rate : BeatRate} {next : Scheduled} {new : List Happening} {m : Message} {ending : Ending}

theorem message?_eq (turned : Turned rate next new (.ok m)) : next.message? = some m := by
  cases turned with
  | taken quiet sendable => exact sendable

theorem tried_eq (turned : Turned rate next new (.ok m)) : tried new = [m] := by
  cases turned with
  | taken quiet sendable => rw [tried_append, tried_of_passes quiet, tried_sent, List.nil_append]

theorem delivered_eq (turned : Turned rate next new (.ok m)) : delivered new = [m] := by
  cases turned with
  | taken quiet sendable =>
      rw [delivered_append, delivered_of_passes quiet, delivered_sent, List.nil_append]

/-- A turn that ends the streaming has delivered nothing. -/
theorem delivered_eq_nil (turned : Turned rate next new (.error ending)) : delivered new = [] := by
  cases turned with
  | stopped quiet stops =>
      rw [delivered_append, delivered_of_passes quiet, delivered_stop stops, List.nil_append]
  | unplaced quiet _ | unsendable quiet _ => exact delivered_of_passes quiet
  | abandoned quiet | lost quiet _ | brokenOff quiet _ =>
      rw [delivered_append, delivered_of_passes quiet]
      rfl

theorem isStop_eq_false (turned : Turned rate next new (.ok m)) : ∀ h ∈ new, h.isStop = false := by
  cases turned with
  | taken quiet sendable =>
      exact List.forall_mem_append.2
        ⟨fun h member => isStop_of_passes (quiet h member), List.forall_mem_singleton.2 rfl⟩

/-- A stop is the last thing that a turn leaves behind. -/
theorem isStop_of_mem_dropLast (turned : Turned rate next new (.error ending)) :
    ∀ h ∈ new.dropLast, h.isStop = false := by
  cases turned with
  | stopped quiet _ | abandoned quiet | lost quiet _ | brokenOff quiet _ =>
      rw [List.dropLast_concat]
      exact fun h member => isStop_of_passes (quiet h member)
  | unplaced quiet _ | unsendable quiet _ =>
      exact fun h member => isStop_of_passes (quiet h (List.dropLast_subset _ member))

end Turned

/-- A turn that has waited so far delivers its message. -/
theorem deliver_leaves (stage : Stage (StateM σ)) (rate : BeatRate) (next : Scheduled)
    {waits : List Happening} (quiet : ∀ h ∈ waits, h.passes = true) :
    stage.Leaves (stage.recorded.deliver next) fun new outcome =>
      Turned rate next (waits ++ new) outcome := by
  apply stage.stopRequested_leaves.bind
  rintro _ stop rfl
  cases stop with
  | true => exact .pure (.stopped quiet rfl)
  | false =>
      have quiet : ∀ h ∈ waits ++ [.asked false], h.passes = true :=
        List.forall_mem_append.2 ⟨quiet, List.forall_mem_singleton.2 rfl⟩
      have last : ∀ h, waits ++ [asked false] ++ [h] = waits ++ ([asked false] ++ ([h] ++ [])) :=
        fun h => List.append_assoc waits [asked false] [h]
      cases sendable : next.message? with
      | none =>
          apply Leaves.pure
          rw [List.append_nil]
          exact .unsendable quiet sendable
      | some m =>
          apply (stage.send_leaves m).bind
          rintro _ delivery rfl
          cases delivery with
          | sent => exact .pure (last _ ▸ .taken quiet sendable)
          | failed reason => exact .pure (last _ ▸ .lost quiet sendable)
          | brokenOff => exact .pure (last _ ▸ .brokenOff quiet sendable)

theorem idle_leaves (stage : Stage (StateM σ)) (r : Renderer) (delay : Float) :
    stage.Leaves (stage.recorded.idle r delay) fun new waking =>
      new = [] ∧ waking = .elapsed ∨ new = [.waited waking] := by
  unfold idle
  split
  · exact (stage.pause_leaves delay r).mono fun new waking => .inr
  · exact .pure (.inl ⟨rfl, rfl⟩)

theorem turn_leaves (stage : Stage (StateM σ)) (start : Float) (r : Renderer) (next : Scheduled) :
    stage.Leaves (stage.recorded.turn start r next) (Turned r.beatRate next) := by
  apply stage.stopRequested_leaves.bind
  rintro _ stop rfl
  cases stop with
  | true => exact .pure (@Turned.stopped _ _ [] _ nofun rfl)
  | false =>
      have quiet : ∀ h ∈ [asked false], h.passes = true := List.forall_mem_singleton.2 rfl
      cases placed : r.beatRate.seconds next.time with
      | error fault => exact .pure (.unplaced quiet placed)
      | ok seconds =>
          apply stage.now_leaves.bind
          rintro _ now rfl
          apply (stage.idle_leaves r (start + seconds - now)).bind
          rintro waits waking (⟨rfl, rfl⟩ | rfl)
          · exact stage.deliver_leaves r.beatRate next quiet
          · cases waking with
            | elapsed =>
                exact stage.deliver_leaves r.beatRate next
                  (List.forall_mem_append.2 ⟨quiet, List.forall_mem_singleton.2 rfl⟩)
            | stopRequested => exact .pure (.stopped quiet rfl)
            | abandoned => exact .pure (.abandoned quiet)

/-! ## Conclusions -/

/-- What a renderer answers when its streaming has ended, and what it leaves behind. -/
inductive Concluded (r : Renderer) :
    Ending → List Happening → Except Halt RenderState × Renderer → Prop where
  | played : Concluded r .played [] (.ok .stopped, { r with state := .stopped })
  | brokenOff : Concluded r .brokenOff [] (.error .brokenOff, r)
  | interrupted {new : List Happening} :
      Attempted r.sounding.releases new .sent →
      Concluded r .stopped new
        (.ok .interrupted, { r with state := .interrupted, sounding := .silent })
  | unreleased {new : List Happening} {reason : String} {left : Sounding} :
      Attempted r.sounding.releases new (.failed reason) →
      Concluded r .stopped new
        (.error (.failed (.releaseFailed reason)), { r with state := .failed, sounding := left })
  | abandoned {new : List Happening} {delivery : Delivery} {left : Sounding} :
      Attempted r.sounding.releases new delivery → delivery ≠ .brokenOff →
      (delivery = .sent → left = .silent) →
      Concluded r .abandoned new
        (.error .abandoned, { r with state := .interrupted, sounding := left })
  | faulty {reason : String} {new : List Happening} {delivery : Delivery} {left : Sounding} :
      Attempted r.sounding.releases new delivery → delivery ≠ .brokenOff →
      (delivery = .sent → left = .silent) →
      Concluded r (.faulty reason) new
        (.error (.failed (.sendFailed reason)), { r with state := .failed, sounding := left })
  /-- The user broke the program off while notes were released. -/
  | cutShort {ending : Ending} {new : List Happening} {left : Sounding} :
      ending ≠ .played → ending ≠ .brokenOff → Attempted r.sounding.releases new .brokenOff →
      Concluded r ending new (.error .brokenOff, { r with sounding := left })

theorem quietenAfter_leaves (stage : Stage (StateM σ)) (r : Renderer) (state : RenderState)
    (halt : Halt) :
    stage.Leaves (stage.recorded.quietenAfter r state halt) fun new answer =>
      ∃ delivery left, Attempted r.sounding.releases new delivery ∧
        (delivery = .sent → left = .silent) ∧
        (delivery = .brokenOff ∧ answer = (.error .brokenOff, { r with sounding := left }) ∨
          delivery ≠ .brokenOff ∧ answer = (.error halt, { r with state, sounding := left })) := by
  apply (stage.quieten_leaves r).bind
  rintro new ⟨delivery, _⟩ ⟨left, rfl, attempted, cleared⟩
  cases delivery with
  | sent | brokenOff =>
      apply Leaves.pure
      rw [List.append_nil]
      exact ⟨_, left, attempted, cleared, by simp⟩
  | failed reason =>
      apply (stage.report_leaves _).bind
      rintro _ _ rfl
      apply Leaves.pure
      rw [List.append_nil, List.append_nil]
      exact ⟨_, left, attempted, cleared, by simp⟩

theorem conclude_leaves (stage : Stage (StateM σ)) (ending : Ending) (r : Renderer) :
    stage.Leaves (stage.recorded.conclude ending r) (Concluded r ending) := by
  cases ending with
  | played =>
      apply (stage.report_leaves _).bind
      rintro _ _ rfl
      exact .pure .played
  | stopped =>
      apply (stage.quieten_leaves r).bind
      rintro new ⟨delivery, _⟩ ⟨left, rfl, attempted, cleared⟩
      cases delivery with
      | sent =>
          obtain rfl := cleared rfl
          apply (stage.report_leaves _).bind
          rintro _ _ rfl
          apply Leaves.pure
          rw [List.append_nil, List.append_nil]
          exact .interrupted attempted
      | failed reason =>
          apply Leaves.pure
          rw [List.append_nil]
          exact .unreleased attempted
      | brokenOff =>
          apply Leaves.pure
          rw [List.append_nil]
          exact .cutShort nofun nofun attempted
  | abandoned =>
      apply (stage.report_leaves _).bind
      rintro _ _ rfl
      apply (stage.quietenAfter_leaves r _ _).mono
      rintro new _ ⟨delivery, left, attempted, cleared, ⟨rfl, rfl⟩ | ⟨whole, rfl⟩⟩
      · exact .cutShort nofun nofun attempted
      · exact .abandoned attempted whole cleared
  | brokenOff => exact .pure .brokenOff
  | faulty reason =>
      apply (stage.quietenAfter_leaves r _ _).mono
      rintro new _ ⟨delivery, left, attempted, cleared, ⟨rfl, rfl⟩ | ⟨whole, rfl⟩⟩
      · exact .cutShort nofun nofun attempted
      · exact .faulty attempted whole cleared

theorem Concluded.of_played {r : Renderer} {new : List Happening}
    {answer : Except Halt RenderState × Renderer} (concluded : Concluded r .played new answer) :
    answer = (.ok .stopped, { r with state := .stopped }) ∧ new = [] := by
  cases concluded with
  | played => exact ⟨rfl, rfl⟩
  | cutShort unplayed => exact absurd rfl unplayed

/-- Unless all was played or the user broke the program off, a renderer tries to release all that
sounds, and nothing sounds any more if that succeeds. -/
theorem Concluded.attempted {r quiet : Renderer} {ending : Ending} {new : List Happening}
    {answer : Except Halt RenderState} (concluded : Concluded r ending new (answer, quiet))
    (unplayed : ending ≠ .played) (whole : ending ≠ .brokenOff) :
    ∃ delivery, Attempted r.sounding.releases new delivery ∧
      (delivery = .sent → quiet.sounding = .silent) := by
  cases concluded with
  | played => exact absurd rfl unplayed
  | brokenOff => exact absurd rfl whole
  | interrupted attempted => exact ⟨_, attempted, fun _ => rfl⟩
  | unreleased attempted => exact ⟨_, attempted, nofun⟩
  | abandoned attempted whole cleared | faulty attempted whole cleared =>
      exact ⟨_, attempted, cleared⟩
  | cutShort _ _ attempted => exact ⟨_, attempted, nofun⟩

end Stage

end MusicAlgebra
