import MusicAlgebra.Proofs.AlikeStages

/-!
# Records of a rendering

A stage may do anything: lose messages, wake a renderer early, be asked to stop at any moment.  To
talk about what happened on it, a stage is made to keep a record of every message that was sent,
every question whether to stop and every pause.  Keeping a record changes nothing else, and what can
stand in it is bounded by what the stage can answer.  A renderer is then described by the records
that it can leave behind.
-/

namespace MusicAlgebra

/-- Something that happened on a stage. -/
inductive Happening where
  | sent (message : Message) (delivery : Delivery)
  /-- The renderer asked whether a stop has been requested. -/
  | asked (stop : Bool)
  | waited (waking : Waking)
  deriving DecidableEq, Repr

namespace Happening

/-- Whether the renderer learned that it is to stop. -/
def isStop : Happening → Bool
  | asked stop => stop
  | waited .stopRequested | waited .abandoned => true
  | _ => false

/-- The message that was sent, whether it arrived or not. -/
def tried? : Happening → Option Message
  | sent message _ => some message
  | _ => none

/-- The message that was sent and arrived. -/
def delivered? : Happening → Option Message
  | sent message .sent => some message
  | _ => none

/-- The messages of a record that were sent. -/
def tried (record : List Happening) : List Message := record.filterMap tried?

/-- The messages of a record that arrived. -/
def delivered (record : List Happening) : List Message := record.filterMap delivered?

@[simp] theorem tried_append (first second : List Happening) :
    tried (first ++ second) = tried first ++ tried second := List.filterMap_append

@[simp] theorem delivered_append (first second : List Happening) :
    delivered (first ++ second) = delivered first ++ delivered second := List.filterMap_append

/-- The record of messages all of which arrived. -/
def arrivals (messages : List Message) : List Happening := messages.map (sent · .sent)

@[simp] theorem tried_arrivals (messages : List Message) :
    tried (arrivals messages) = messages := by
  simp [tried, arrivals, List.filterMap_map, Function.comp_def, tried?]

@[simp] theorem delivered_arrivals (messages : List Message) :
    delivered (arrivals messages) = messages := by
  simp [delivered, arrivals, List.filterMap_map, Function.comp_def, delivered?]

end Happening

open Happening

namespace Stage

variable {σ α β : Type}

/-- A stage that keeps a record. -/
def recorded (stage : Stage (StateM σ)) : Stage (StateM (σ × List Happening)) where
  send message := fun (s, record) =>
    let (delivery, s) := (stage.send message).run s
    (delivery, s, record ++ [.sent message delivery])
  pause delay r := fun (s, record) =>
    let (waking, s) := (stage.pause delay r).run s
    (waking, s, record ++ [.waited waking])
  now := fun (s, record) =>
    let (moment, s) := stage.now.run s
    (moment, s, record)
  stopRequested := fun (s, record) =>
    let (stop, s) := stage.stopRequested.run s
    (stop, s, record ++ [.asked stop])
  report notice := fun (s, record) =>
    let ((), s) := (stage.report notice).run s
    ((), s, record)

/-! ## Keeping a record changes nothing -/

/-- Apart from the record, one program does what the other does. -/
def Forgets (recording : StateM (σ × List Happening) α) (plain : StateM σ α) : Prop :=
  ∀ s record, ((recording.run (s, record)).1, (recording.run (s, record)).2.1) = plain.run s

namespace Forgets

theorem pure (a : α) : Forgets (σ := σ) (Pure.pure a) (Pure.pure a) := fun _ _ => rfl

theorem bind {recording : StateM (σ × List Happening) α} {plain : StateM σ α}
    {next : α → StateM (σ × List Happening) β} {plainNext : α → StateM σ β}
    (first : Forgets recording plain) (others : ∀ a, Forgets (next a) (plainNext a)) :
    Forgets (recording >>= next) (plain >>= plainNext) := by
  intro s record
  have started := first s record
  have continued := others (recording.run (s, record)).1 (recording.run (s, record)).2.1
    (recording.run (s, record)).2.2
  rw [StateT.run_bind, StateT.run_bind, ← started]
  exact continued

end Forgets

/-- Doing the same apart from the record is a sense in which programs are alike. -/
def forgetting : Likeness (StateM (σ × List Happening)) (StateM σ) where
  alike := Forgets
  pure := Forgets.pure
  bind := Forgets.bind

theorem recorded_alike (stage : Stage (StateM σ)) : Alike forgetting stage.recorded stage where
  send _ _ _ := rfl
  pause _ _ _ _ := rfl
  now _ _ := rfl
  stopRequested _ _ := rfl
  report _ _ _ := rfl

/-- Keeping a record changes nothing of how a performance is played. -/
theorem recorded_render [Limits] (stage : Stage (StateM σ)) (r : Renderer) (p : Performance) :
    Forgets (stage.recorded.render r p) (stage.render r p) :=
  stage.recorded_alike.render r p

end Stage

end MusicAlgebra
