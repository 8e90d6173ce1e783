import MusicAlgebra.Midi.Playback
import MusicAlgebra.Proofs.Record

/-!
# Closed outputs

Whoever plays a performance lets signals request a stop, chooses an output, opens it, renders on it
and closes it again.  Each of these steps can go wrong.  A world that keeps a record of all of them
shows that there is but one course: if an output was opened at all, it was the chosen one, whatever
was sent lies between its opening and its one closing, and the answer is that of the rendering,
however the closing went.  At the end no signal is left that requests a stop.
-/

namespace MusicAlgebra

/-- Something that is done in a world while a performance is played. -/
inductive Deed where
  | listed (answer : Except String (List String))
  | opened (name : String) (answer : Except String Unit)
  /-- Something that happened on the stage. -/
  | staged (happening : Happening)
  | closed (answer : Except String Unit)
  /-- A signal was to request a stop from now on, if that is possible. -/
  | handled (signal : Signal) (possible : Bool)
  | unhandled (signal : Signal)
  /-- The end of the task, with whether it was given up meanwhile. -/
  | settled (givenUp : Bool)

namespace Deed

/-- Whether something was done with an output: to open it, to send to it or to close it. -/
def usesOutput : Deed → Bool
  | opened .. | staged _ | closed _ => true
  | _ => false

/-- The output that someone tried to open. -/
def tried? : Deed → Option String
  | opened name _ => some name
  | _ => none

/-- The signal that requests a stop from now on. -/
def installed? : Deed → Option Signal
  | handled signal true => some signal
  | _ => none

/-- The signal that does not request a stop any more. -/
def removed? : Deed → Option Signal
  | unhandled signal => some signal
  | _ => none

/-- What is done last: signals do not request a stop any more, and the task ends. -/
def endings (signals : List Signal) (up : Bool) : List Deed :=
  signals.map unhandled ++ [settled up]

end Deed

namespace World

variable {σ α β : Type}

/-- A program that notes what it has done, once it has its answer. -/
def noting (deeds : α → List Deed) (program : StateM σ α) : StateM (σ × List Deed) α :=
  fun (s, record) =>
    let (a, s) := program.run s
    (a, s, record ++ deeds a)

/-- A world in which everything that is done goes on record. -/
def observed (world : World (StateM σ)) : World (StateM (σ × List Deed)) where
  send message := noting (fun delivery => [.staged (.sent message delivery)]) (world.send message)
  pause delay r := noting (fun waking => [.staged (.waited waking)]) (world.pause delay r)
  now := noting (fun _ => []) world.now
  stopRequested := noting (fun stop => [.staged (.asked stop)]) world.stopRequested
  report notice := noting (fun _ => []) (world.report notice)
  outputs := noting (fun answer => [.listed answer]) world.outputs
  openOutput name := noting (fun answer => [.opened name answer]) (world.openOutput name)
  closeOutput := noting (fun answer => [.closed answer]) world.closeOutput
  handle signal := noting (fun possible => [.handled signal possible]) (world.handle signal)
  unhandle signal := noting (fun _ => [.unhandled signal]) (world.unhandle signal)
  renewRequest := noting (fun _ => []) world.renewRequest
  givenUp := noting (fun up => [.settled up]) world.givenUp

/-! ## What programs leave in the record -/

/-- Run from a state, one program does what the other does, and the deeds that it adds to the record
fit the answer and the state that it comes to. -/
def Leaves (recording : StateM (σ × List Deed) α) (plain : StateM σ α) (s : σ)
    (fits : List Deed → α → σ → Prop) : Prop :=
  ∀ record, ∃ new,
    recording.run (s, record) = ((plain.run s).1, (plain.run s).2, record ++ new) ∧
      fits new (plain.run s).1 (plain.run s).2

namespace Leaves

variable {recording : StateM (σ × List Deed) α} {plain : StateM σ α} {s : σ}
variable {fits weaker : List Deed → α → σ → Prop}

theorem pure {a : α} (fit : fits [] a s) : Leaves (Pure.pure a) (Pure.pure a) s fits :=
  fun record => ⟨[], congrArg (fun grown => (a, s, grown)) (List.append_nil record).symm, fit⟩

theorem bind {next : α → StateM (σ × List Deed) β} {plainNext : α → StateM σ β}
    {later : List Deed → β → σ → Prop} (first : Leaves recording plain s fits)
    (others : ∀ before a t, plain.run s = (a, t) → fits before a t →
      Leaves (next a) (plainNext a) t fun after b u => later (before ++ after) b u) :
    Leaves (recording >>= next) (plain >>= plainNext) s later := by
  intro record
  obtain ⟨before, ran, fit⟩ := first record
  obtain ⟨after, ranOn, fitsOn⟩ := others before _ _ rfl fit (record ++ before)
  refine ⟨before ++ after, ?_, fitsOn⟩
  rw [StateT.run_bind, ran]
  exact ranOn.trans (by rw [List.append_assoc]; rfl)

theorem mono (leaves : Leaves recording plain s fits)
    (weaken : ∀ new a t, plain.run s = (a, t) → fits new a t → weaker new a t) :
    Leaves recording plain s weaker := by
  intro record
  obtain ⟨new, ran, fit⟩ := leaves record
  exact ⟨new, ran, weaken new _ _ rfl fit⟩

theorem noting (deeds : α → List Deed) (plain : StateM σ α) (s : σ) :
    Leaves (World.noting deeds plain) plain s fun new a _ => new = deeds a :=
  fun _ => ⟨_, rfl, rfl⟩

end Leaves

/-- Leaving nothing but what happens on the stage is a sense in which programs are alike. -/
def staging : Likeness (StateM (σ × List Deed)) (StateM σ) where
  alike recording plain := ∀ s, Leaves recording plain s fun new _ _ =>
    ∃ happenings : List Happening, new = happenings.map .staged
  pure _ _ := .pure ⟨[], rfl⟩
  bind first others s := by
    apply (first s).bind
    rintro _ a t - ⟨before, rfl⟩
    apply (others a t).mono
    rintro _ _ _ - ⟨after, rfl⟩
    exact ⟨before ++ after, (List.map_append).symm⟩

theorem observed_alike (world : World (StateM σ)) :
    Stage.Alike staging world.observed.toStage world.toStage where
  send message _ _ := ⟨_, rfl, [.sent message _], rfl⟩
  pause _ _ _ _ := ⟨_, rfl, [.waited _], rfl⟩
  now _ _ := ⟨_, rfl, [], rfl⟩
  stopRequested _ _ := ⟨_, rfl, [.asked _], rfl⟩
  report _ _ _ := ⟨_, rfl, [], rfl⟩

section Actions

variable (world : World (StateM σ)) (s : σ)

theorem report_leaves (notice : Notice) :
    Leaves (world.observed.report notice) (world.report notice) s fun new _ _ => new = [] :=
  .noting (fun _ => []) _ s

theorem outputs_leaves :
    Leaves world.observed.outputs world.outputs s fun new answer _ => new = [.listed answer] :=
  .noting (fun answer => [.listed answer]) _ s

theorem openOutput_leaves (name : String) :
    Leaves (world.observed.openOutput name) (world.openOutput name) s fun new answer _ =>
      new = [.opened name answer] :=
  .noting (fun answer => [.opened name answer]) _ s

theorem closeOutput_leaves :
    Leaves world.observed.closeOutput world.closeOutput s fun new answer _ =>
      new = [.closed answer] :=
  .noting (fun answer => [.closed answer]) _ s

theorem handle_leaves (signal : Signal) :
    Leaves (world.observed.handle signal) (world.handle signal) s fun new possible _ =>
      new = [.handled signal possible] :=
  .noting (fun possible => [.handled signal possible]) _ s

theorem unhandle_leaves (signal : Signal) :
    Leaves (world.observed.unhandle signal) (world.unhandle signal) s fun new _ _ =>
      new = [.unhandled signal] :=
  .noting (fun _ => [.unhandled signal]) _ s

theorem renewRequest_leaves :
    Leaves world.observed.renewRequest world.renewRequest s fun new _ _ => new = [] :=
  .noting (fun _ => []) _ s

theorem givenUp_leaves :
    Leaves world.observed.givenUp world.givenUp s fun new up _ => new = [.settled up] :=
  .noting (fun up => [.settled up]) _ s

end Actions

/-! ## Rendering -/

/-- Rendering leaves nothing but what happens on the stage. -/
theorem renderOnce_leaves [Limits] (world : World (StateM σ)) (p : Performance) (wishes : Wishes)
    (s : σ) :
    Leaves (world.observed.renderOnce p wishes) (world.renderOnce p wishes) s fun new _ _ =>
      ∃ happenings : List Happening, new = happenings.map .staged := by
  unfold renderOnce
  cases Renderer.build wishes.beatRate wishes.patchMap with
  | error cause => exact .pure ⟨[], rfl⟩
  | ok r => exact staging.bind (world.observed_alike.render r p) (fun _ => staging.pure _) s

/-! ## Choosing, opening and closing -/

/-- What choosing and opening an output leaves behind, by what comes of it. -/
inductive Selected (requested : Option String) :
    List Deed → Except RenderFailure String → Prop where
  | unlisted {reason : String} :
      Selected requested [.listed (.error reason)] (.error (.listingFailed reason))
  | unchosen {names : List String} {cause : RenderFailure} :
      OutputChoice.choose names requested = .error cause →
      Selected requested [.listed (.ok names)] (.error cause)
  | unopened {names : List String} {choice : OutputChoice} {reason : String} :
      OutputChoice.choose names requested = .ok choice →
      Selected requested [.listed (.ok names), .opened choice.name (.error reason)]
        (.error (.openingFailed choice.name reason))
  | opened {names : List String} {choice : OutputChoice} :
      OutputChoice.choose names requested = .ok choice →
      Selected requested [.listed (.ok names), .opened choice.name (.ok ())] (.ok choice.name)

theorem notice_leaves (world : World (StateM σ)) (notice : Option Notice) (s : σ) :
    Leaves (notice.forM world.observed.report) (notice.forM world.report) s
      fun new _ _ => new = [] := by
  cases notice with
  | none => exact .pure rfl
  | some notice => exact world.report_leaves s notice

theorem select_leaves (world : World (StateM σ)) (requested : Option String) (s : σ) :
    Leaves (world.observed.select requested) (world.select requested) s fun new answer _ =>
      Selected requested new answer := by
  apply (world.outputs_leaves s).bind
  rintro _ answer listed - rfl
  cases answer with
  | error reason => exact .pure .unlisted
  | ok names =>
      apply (world.report_leaves listed _).bind
      rintro _ _ reported - rfl
      cases chosen : OutputChoice.choose names requested with
      | error cause => exact .pure (.unchosen chosen)
      | ok choice =>
          apply (world.notice_leaves choice.notice reported).bind
          rintro _ _ told - rfl
          apply (world.openOutput_leaves told choice.name).bind
          rintro _ answer opened - rfl
          cases answer with
          | error reason => exact .pure (.unopened chosen)
          | ok done =>
              apply (world.report_leaves opened _).bind
              rintro _ _ _ - rfl
              exact .pure (.opened chosen)

theorem close_leaves (world : World (StateM σ)) (name : String) (s : σ) :
    Leaves (world.observed.close name) (world.close name) s fun new _ _ =>
      ∃ answer, new = [.closed answer] := by
  apply (world.closeOutput_leaves s).bind
  rintro _ answer closed - rfl
  cases answer with
  | error reason | ok done =>
      apply (world.report_leaves closed _).mono
      rintro _ _ _ - rfl
      exact ⟨_, rfl⟩

/-- What is left behind where something is done with an open output. -/
inductive Used (world : World (StateM σ)) (requested : Option String) (body : StateM σ α) :
    List Deed → Except RenderFailure α → Prop where
  | unselected {choosing : List Deed} {cause : RenderFailure} :
      Selected requested choosing (.error cause) →
      Used world requested body choosing (.error cause)
  | closed {choosing : List Deed} {name : String} {ready opened finished : σ} {a : α}
      {happenings : List Happening} {closing : Except String Unit} :
      Selected requested choosing (.ok name) →
      (world.select requested).run ready = (.ok name, opened) →
      body.run opened = (a, finished) →
      Used world requested body (choosing ++ (happenings.map .staged ++ [.closed closing])) (.ok a)

theorem withOutput_leaves (world : World (StateM σ)) (requested : Option String)
    {recording : StateM (σ × List Deed) α} {body : StateM σ α}
    (stays : ∀ s, Leaves recording body s fun new _ _ =>
      ∃ happenings : List Happening, new = happenings.map .staged) (s : σ) :
    Leaves (world.observed.withOutput requested recording) (world.withOutput requested body) s
      fun new answer _ => Used world requested body new answer := by
  apply (world.select_leaves requested s).bind
  intro choosing answer opened ran selected
  cases answer with
  | error cause =>
      apply Leaves.pure
      rw [List.append_nil]
      exact .unselected selected
  | ok name =>
      apply (stays opened).bind
      rintro _ a finished rendered ⟨happenings, rfl⟩
      apply (world.close_leaves name finished).bind
      rintro _ _ _ - ⟨closing, rfl⟩
      apply Leaves.pure
      rw [List.append_nil]
      exact .closed selected ran rendered

/-! ## Signals -/

/-- Signals are handled one after the other, and those that can be are told. -/
theorem handleAll_leaves (world : World (StateM σ)) (signals : List Signal) (s : σ) :
    Leaves (world.observed.handleAll signals) (world.handleAll signals) s fun new handled _ =>
      new.filterMap Deed.installed? = handled ∧ ∀ d ∈ new, ∃ signal possible,
        d = .handled signal possible := by
  induction signals generalizing s with
  | nil => exact .pure ⟨rfl, nofun⟩
  | cons signal signals ih =>
      apply (world.handle_leaves s signal).bind
      rintro _ possible tried - rfl
      apply (ih tried).bind
      rintro before handled _ - ⟨installed, kind⟩
      apply Leaves.pure
      rw [List.append_nil]
      refine ⟨?_, List.forall_mem_cons.2 ⟨⟨signal, possible, rfl⟩, kind⟩⟩
      cases possible with
      | false => exact installed
      | true => exact congrArg (signal :: ·) installed

theorem unhandleAll_leaves (world : World (StateM σ)) (signals : List Signal) (s : σ) :
    Leaves (signals.forM world.observed.unhandle) (signals.forM world.unhandle) s fun new _ _ =>
      new = signals.map .unhandled := by
  induction signals generalizing s with
  | nil => exact .pure rfl
  | cons signal signals ih =>
      apply (world.unhandle_leaves s signal).bind
      rintro _ _ _ - rfl
      apply (ih _).mono
      rintro _ _ _ - rfl
      rfl

/-! ## The course of a performance -/

/-- The answer of a task for which there may have been no output. -/
def outcome : Except RenderFailure (Except Halt α) → Except Halt α
  | .error cause => .error (.failed cause)
  | .ok result => result

/-- What playing a performance leaves behind, and what comes of it. -/
inductive Performed [Limits] (world : World (StateM σ)) (p : Performance) (wishes : Wishes) :
    List Deed → Except Halt RenderState → Prop where
  | intro {handling playing : List Deed}
      {answer : Except RenderFailure (Except Halt RenderState)} {up : Bool} :
      (∀ d ∈ handling, ∃ signal possible, d = .handled signal possible) →
      Used world wishes.output (world.renderOnce p wishes) playing answer →
      Performed world p wishes
        (handling ++ (playing ++ Deed.endings (handling.filterMap Deed.installed?) up))
        (if up then Halt.afterGivingUp (outcome answer) else outcome answer)

theorem settle_leaves (world : World (StateM σ)) (result : Except Halt α) (s : σ) :
    Leaves (world.observed.settle result) (world.settle result) s fun new answer _ =>
      ∃ up, new = [.settled up] ∧
        answer = if up then Halt.afterGivingUp result else result := by
  apply (world.givenUp_leaves s).bind
  rintro _ up _ - rfl
  exact .pure ⟨up, rfl, rfl⟩

/-- Let signals request a stop, if that is wished. -/
def install {m : Type → Type} [Monad m] (world : World m) (wishes : Wishes) : m (List Signal) :=
  if wishes.handleSignals then world.handleAll Signal.all else pure []

/-- Play a performance while some signals request a stop, which they do not do afterwards. -/
def conduct [Limits] {m : Type → Type} [Monad m] (world : World m) (p : Performance)
    (wishes : Wishes)
    (handled : List Signal) : m (Except Halt RenderState) := do
  world.report (.info .renderer "Playing performance. Press Ctrl+C to stop.")
  let answer ← world.withOutput wishes.output (world.renderOnce p wishes)
  handled.forM world.unhandle
  match answer with
  | .error cause => world.settle (.error (.failed cause))
  | .ok result => world.settle result

theorem perform_eq [Limits] {m : Type → Type} [Monad m] (world : World m) (p : Performance)
    (wishes : Wishes) :
    world.perform p wishes = (do
      world.renewRequest
      let handled ← world.install wishes
      world.conduct p wishes handled) := by
  unfold perform install
  cases wishes.handleSignals <;> rfl

theorem install_leaves (world : World (StateM σ)) (wishes : Wishes) (s : σ) :
    Leaves (world.observed.install wishes) (world.install wishes) s fun new handled _ =>
      new.filterMap Deed.installed? = handled ∧
        ∀ d ∈ new, ∃ signal possible, d = .handled signal possible := by
  unfold install
  split
  · exact world.handleAll_leaves Signal.all s
  · exact .pure ⟨rfl, nofun⟩

theorem conduct_leaves [Limits] (world : World (StateM σ)) (p : Performance) (wishes : Wishes)
    (handled : List Signal) (s : σ) :
    Leaves (world.observed.conduct p wishes handled) (world.conduct p wishes handled) s
      fun new answer _ => ∃ playing used up,
        Used world wishes.output (world.renderOnce p wishes) playing used ∧
        new = playing ++ Deed.endings handled up ∧
        answer = if up then Halt.afterGivingUp (outcome used) else outcome used := by
  apply (world.report_leaves s _).bind
  rintro _ _ ready - rfl
  apply (world.withOutput_leaves wishes.output (world.renderOnce_leaves p wishes) ready).bind
  intro playing answer finished _ used
  apply (world.unhandleAll_leaves _ finished).bind
  rintro _ _ released - rfl
  cases answer with
  | error result | ok result =>
      apply (world.settle_leaves _ released).mono
      rintro _ _ _ - ⟨up, rfl, rfl⟩
      exact ⟨playing, _, up, used, rfl, rfl⟩

theorem perform_leaves [Limits] (world : World (StateM σ)) (p : Performance) (wishes : Wishes)
    (s : σ) :
    Leaves (world.observed.perform p wishes) (world.perform p wishes) s fun new answer _ =>
      Performed world p wishes new answer := by
  rw [perform_eq, perform_eq]
  apply (world.renewRequest_leaves s).bind
  rintro _ _ renewed - rfl
  apply (world.install_leaves wishes renewed).bind
  rintro handling _ handled - ⟨rfl, kind⟩
  apply (world.conduct_leaves p wishes _ handled).mono
  rintro _ _ _ - ⟨playing, used, up, fits, rfl, rfl⟩
  exact .intro kind fits

/-! ## Looking at the record -/

namespace Selected

variable {requested : Option String} {choosing : List Deed} {name : String}
variable {answer : Except RenderFailure String} {cause : RenderFailure}

theorem length_tried_le (selected : Selected requested choosing answer) :
    (choosing.filterMap Deed.tried?).length ≤ 1 := by
  cases selected with
  | unlisted | unchosen _ => exact Nat.zero_le _
  | unopened _ | opened _ => exact Nat.le_refl _

/-- Only an output that was chosen among those listed is tried. -/
theorem chosen (selected : Selected requested choosing answer)
    (tried : name ∈ choosing.filterMap Deed.tried?) :
    ∃ names choice, Deed.listed (.ok names) ∈ choosing ∧
      OutputChoice.choose names requested = .ok choice ∧ choice.name = name := by
  cases selected with
  | unlisted => simp [Deed.tried?] at tried
  | unchosen => simp [Deed.tried?] at tried
  | unopened chosen | opened chosen =>
      exact ⟨_, _, List.mem_cons_self, chosen, by simpa [Deed.tried?] using tried⟩

theorem of_ok (selected : Selected requested choosing (.ok name)) :
    ∃ names, choosing = [.listed (.ok names), .opened name (.ok ())] := by
  cases selected with
  | opened chosen => exact ⟨_, rfl⟩

theorem opened_of_error (selected : Selected requested choosing (.error cause)) {d : Deed}
    (member : d ∈ choosing) (uses : d.usesOutput = true) :
    ∃ name reason, d = .opened name (.error reason) := by
  cases selected with
  | unlisted | unchosen _ =>
      obtain rfl := List.mem_singleton.1 member
      cases uses
  | unopened _ =>
      rcases List.mem_cons.1 member with rfl | member
      · cases uses
      · exact ⟨_, _, List.mem_singleton.1 member⟩

theorem signalless (selected : Selected requested choosing answer) :
    choosing.filterMap Deed.installed? = [] ∧ choosing.filterMap Deed.removed? = [] := by
  cases selected <;> exact ⟨rfl, rfl⟩

end Selected

namespace Used

variable {world : World (StateM σ)} {requested : Option String} {body : StateM σ α}
variable {playing : List Deed} {answer : Except RenderFailure α}

/-- Sending and closing are neither attempts to open an output nor about signals. -/
theorem filterMap_use {γ : Type} {pick : Deed → Option γ} (happenings : List Happening)
    {closing : Except String Unit} (unstaged : ∀ h, pick (.staged h) = none)
    (unclosed : pick (.closed closing) = none) :
    (happenings.map Deed.staged ++ [Deed.closed closing]).filterMap pick = [] := by
  apply List.filterMap_eq_nil_iff.2
  intro d member
  rcases List.mem_append.1 member with staged | closed
  · obtain ⟨h, -, rfl⟩ := List.mem_map.1 staged
    exact unstaged h
  · rw [List.mem_singleton.1 closed]
    exact unclosed

/-- Outputs are opened while one is chosen, and signals are left alone all the time. -/
theorem exists_selected (used : Used world requested body playing answer) :
    ∃ choosing selection, Selected requested choosing selection ∧ choosing <+: playing ∧
      playing.filterMap Deed.tried? = choosing.filterMap Deed.tried? ∧
      playing.filterMap Deed.installed? = [] ∧ playing.filterMap Deed.removed? = [] := by
  cases used with
  | unselected selected =>
      exact ⟨playing, _, selected, List.prefix_refl playing, rfl, selected.signalless⟩
  | @closed choosing _ _ _ _ _ happenings closing selected ready rendered =>
      have untried : (happenings.map Deed.staged ++ [Deed.closed closing]).filterMap Deed.tried? =
          [] := filterMap_use happenings (fun _ => rfl) rfl
      refine ⟨choosing, _, selected, List.prefix_append _ _, ?_, ?_, ?_⟩
      · rw [List.filterMap_append, untried, List.append_nil]
      · rw [List.filterMap_append, selected.signalless.1]
        exact filterMap_use happenings (fun _ => rfl) rfl
      · rw [List.filterMap_append, selected.signalless.2]
        exact filterMap_use happenings (fun _ => rfl) rfl

end Used

/-- What is done to let signals request a stop concerns no outputs and ends no handling. -/
theorem handling_quiet {handling : List Deed}
    (kind : ∀ d ∈ handling, ∃ signal possible, d = .handled signal possible) :
    handling.filterMap Deed.tried? = [] ∧ handling.filterMap Deed.removed? = [] ∧
      ∀ d ∈ handling, d.usesOutput = false := by
  refine ⟨List.filterMap_eq_nil_iff.2 ?_, List.filterMap_eq_nil_iff.2 ?_, ?_⟩
  all_goals
    intro d member
    obtain ⟨signal, possible, rfl⟩ := kind d member
    rfl

/-- What is done last concerns no outputs and handles no more signals. -/
theorem endings_quiet (signals : List Signal) (up : Bool) :
    (Deed.endings signals up).filterMap Deed.tried? = [] ∧
      (Deed.endings signals up).filterMap Deed.installed? = [] ∧
      (Deed.endings signals up).filterMap Deed.removed? = signals ∧
      ∀ d ∈ Deed.endings signals up, d.usesOutput = false := by
  induction signals with
  | nil => exact ⟨rfl, rfl, rfl, fun d member => List.mem_singleton.1 member ▸ rfl⟩
  | cons signal signals ih =>
      obtain ⟨untried, uninstalled, removed, quiet⟩ := ih
      exact ⟨untried, uninstalled, congrArg (signal :: ·) removed,
        List.forall_mem_cons.2 ⟨rfl, quiet⟩⟩

namespace Performed

variable {world : World (StateM σ)} {p : Performance} {wishes : Wishes} {record : List Deed}
variable {result : Except Halt RenderState}

theorem tried [Limits] (performed : Performed world p wishes record result) :
    (record.filterMap Deed.tried?).length ≤ 1 ∧
      ∀ name ∈ record.filterMap Deed.tried?, ∃ names choice,
        Deed.listed (.ok names) ∈ record ∧
          OutputChoice.choose names wishes.output = .ok choice ∧ choice.name = name := by
  obtain ⟨kind, used⟩ := performed
  obtain ⟨choosing, _, selected, first, only, -⟩ := used.exists_selected
  simp only [List.filterMap_append, (handling_quiet kind).1, (endings_quiet _ _).1, only,
    List.nil_append, List.append_nil]
  refine ⟨selected.length_tried_le, fun name tried => ?_⟩
  obtain ⟨names, choice, listed, chosen, same⟩ := selected.chosen tried
  refine ⟨names, choice, ?_, chosen, same⟩
  exact List.mem_append_right _ (List.mem_append_left _ (first.subset listed))

theorem removed_eq [Limits] (performed : Performed world p wishes record result) :
    record.filterMap Deed.removed? = record.filterMap Deed.installed? := by
  obtain ⟨kind, used⟩ := performed
  obtain ⟨_, _, -, -, -, uninstalled, unremoved⟩ := used.exists_selected
  simp only [List.filterMap_append, (handling_quiet kind).2.1, uninstalled, unremoved,
    (endings_quiet _ _).2.1, (endings_quiet _ _).2.2.1, List.nil_append, List.append_nil]

/-- A signal that requests a stop does so no more at the end. -/
theorem removed_later [Limits] (performed : Performed world p wishes record result)
    {signal : Signal}
    {before after : List Deed} (split : record = before ++ .handled signal true :: after) :
    .unhandled signal ∈ after := by
  have removed : signal ∈ record.filterMap Deed.removed? := by
    rw [performed.removed_eq, split, List.filterMap_append]
    exact List.mem_append_right _ List.mem_cons_self
  obtain @⟨handling, playing, _, up, kind, used⟩ := performed
  obtain ⟨_, _, -, -, -, uninstalled, unremoved⟩ := used.exists_selected
  have endings := endings_quiet (handling.filterMap Deed.installed?) up
  -- Nothing that is done later handles a signal, so all of it comes after.
  have absent : .handled signal true ∉
      playing ++ Deed.endings (handling.filterMap Deed.installed?) up := by
    intro member
    have installed : signal ∈ (playing ++ Deed.endings (handling.filterMap Deed.installed?)
        up).filterMap Deed.installed? := List.mem_filterMap.2 ⟨_, member, rfl⟩
    rw [List.filterMap_append, uninstalled, endings.2.1] at installed
    cases installed
  have later : playing ++ Deed.endings (handling.filterMap Deed.installed?) up <:+ after := by
    rcases List.suffix_or_suffix_of_suffix (List.suffix_append handling _)
      (split ▸ List.suffix_append before _) with within | within
    · rcases List.suffix_cons_iff.1 within with same | within
      · exact absurd (same ▸ List.mem_cons_self) absent
      · exact within
    · exact absurd (within.subset List.mem_cons_self) absent
  rw [List.filterMap_append, (handling_quiet kind).2.1, List.nil_append] at removed
  obtain ⟨d, member, picked⟩ := List.mem_filterMap.1 removed
  cases d with
  | unhandled other =>
      cases picked
      exact later.subset member
  | _ => cases picked

/-- Either no output was opened, so nothing was sent and nothing closed, or there was one, which was
closed after all that was sent, and the answer is that of the rendering. -/
theorem course [Limits] (performed : Performed world p wishes record result) :
    (∃ choosing cause, Selected wishes.output choosing (.error cause) ∧ choosing <:+: record ∧
        result = .error (.failed cause) ∧
        ∀ d ∈ record, d.usesOutput = true → ∃ name reason, d = .opened name (.error reason)) ∨
      ∃ before name closing after ready opened finished answer up,
        ∃ happenings : List Happening,
          record = before ++ .opened name (.ok ()) ::
            (happenings.map .staged ++ .closed closing :: after) ∧
          (∀ d ∈ before ++ after, d.usesOutput = false) ∧
          (world.select wishes.output).run ready = (.ok name, opened) ∧
          (world.renderOnce p wishes).run opened = (answer, finished) ∧
          .settled up ∈ after ∧
          result = if up then Halt.afterGivingUp answer else answer := by
  obtain @⟨handling, _, _, up, kind, used⟩ := performed
  have quietBefore := (handling_quiet kind).2.2
  have quietAfter := (endings_quiet (handling.filterMap Deed.installed?) up).2.2.2
  cases used with
  | @unselected choosing cause selected =>
      refine .inl ⟨_, cause, selected, List.infix_append' _ _ _, ?_, ?_⟩
      · cases up <;> rfl
      · intro d member uses
        rcases List.mem_append.1 member with early | member
        · cases (quietBefore d early).symm.trans uses
        rcases List.mem_append.1 member with member | late
        · exact selected.opened_of_error member uses
        · cases (quietAfter d late).symm.trans uses
  | @closed _ name ready opened finished answer happenings closing selected chosen rendered =>
      obtain ⟨names, rfl⟩ := selected.of_ok
      refine .inr ⟨handling ++ [.listed (.ok names)], name, closing,
        Deed.endings (handling.filterMap Deed.installed?) up, ready, opened, finished, answer, up,
        happenings, ?_, ?_, chosen, rendered, ?_, rfl⟩
      · simp only [List.append_assoc, List.cons_append, List.nil_append]
      · intro d member
        simp only [List.mem_append, List.mem_singleton] at member
        rcases member with (early | rfl) | late
        · exact quietBefore d early
        · rfl
        · exact quietAfter d late
      · exact List.mem_append_right _ (List.mem_singleton.2 rfl)

end Performed

/-- Whatever goes wrong while a performance is played, at most one output is tried, which is the one
that was chosen.  If it was opened, then it was closed once, all that was sent was sent in between,
and the call answers as the rendering did, however the closing went.  If none was opened, nothing
was sent or closed, and the answer says why.  Each signal that came to request a stop does so no
more.  A task that was given up meanwhile ends as one, unless something went wrong before. -/
theorem perform_closes_what_it_opens [Limits] (world : World (StateM σ)) (p : Performance)
    (wishes : Wishes) (s : σ) :
    let run := (world.observed.perform p wishes).run (s, [])
    let record := run.2.2
    (world.perform p wishes).run s = (run.1, run.2.1) ∧
      (record.filterMap Deed.tried?).length ≤ 1 ∧
      (∀ name ∈ record.filterMap Deed.tried?, ∃ names choice,
        Deed.listed (.ok names) ∈ record ∧
          OutputChoice.choose names wishes.output = .ok choice ∧ choice.name = name) ∧
      ((∃ choosing cause, Selected wishes.output choosing (.error cause) ∧
          choosing <:+: record ∧ run.1 = .error (.failed cause) ∧
          ∀ d ∈ record, d.usesOutput = true → ∃ name reason, d = .opened name (.error reason)) ∨
        ∃ before name closing after ready opened finished answer up,
          ∃ happenings : List Happening,
            record = before ++ .opened name (.ok ()) ::
              (happenings.map .staged ++ .closed closing :: after) ∧
            (∀ d ∈ before ++ after, d.usesOutput = false) ∧
            (world.select wishes.output).run ready = (.ok name, opened) ∧
            (world.renderOnce p wishes).run opened = (answer, finished) ∧
            .settled up ∈ after ∧
            run.1 = if up then Halt.afterGivingUp answer else answer) ∧
      record.filterMap Deed.removed? = record.filterMap Deed.installed? ∧
      ∀ before signal after, record = before ++ .handled signal true :: after →
        .unhandled signal ∈ after := by
  intro run record
  obtain ⟨new, ran, performed⟩ := world.perform_leaves p wishes s []
  have same : run = (((world.perform p wishes).run s).1, ((world.perform p wishes).run s).2, new) :=
    ran
  have result : run.1 = ((world.perform p wishes).run s).1 := congrArg Prod.fst same
  have kept : record = new := congrArg (·.2.2) same
  rw [kept, result]
  refine ⟨?_, performed.tried.1, performed.tried.2, performed.course, performed.removed_eq,
    fun before signal after split => performed.removed_later split⟩
  rw [same]
  rfl

end World

end MusicAlgebra
