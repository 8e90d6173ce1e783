import Mathlib.Data.List.Flatten
import Mathlib.Data.List.Nodup
import Mathlib.Tactic.Linarith
import MusicAlgebra.Proofs.EventOrder
import MusicAlgebra.Proofs.Outcome
import MusicAlgebra.Proofs.SoundingNotes

/-!
# The order of a queue

The messages of a queue come in pairs: every audible event has an attack and, later, a release on
the channel of its instrument.  A queue is these messages in the order in which they go out, and no
two of them share a place.  So in whatever front part of a queue, no note is released more often
than attacked, and what is attacked and not released there are the events that sound at the time.
-/

namespace MusicAlgebra

open Outcome

/-! ## Order -/

namespace Scheduled

/-- The order in which messages go out: by time, releases before attacks, and in the order of the
events. -/
def Before (a b : Scheduled) : Prop :=
  a.time < b.time ∨ a.time = b.time ∧
    (a.action.priority < b.action.priority ∨
      a.action.priority = b.action.priority ∧ a.sequence < b.sequence)

instance : DecidableRel Before := fun a b =>
  inferInstanceAs (Decidable (a.time < b.time ∨ a.time = b.time ∧
    (a.action.priority < b.action.priority ∨
      a.action.priority = b.action.priority ∧ a.sequence < b.sequence)))

theorem noLater_iff {a b : Scheduled} :
    a.noLater b = true ↔
      a.Before b ∨
        a.time = b.time ∧ a.action.priority = b.action.priority ∧ a.sequence = b.sequence := by
  unfold noLater Before
  split
  · rename_i time
    split
    · rename_i priority
      simp only [time, priority, lt_irrefl, decide_eq_true_eq, true_and, false_or]
      omega
    · rename_i priority
      simp [time, priority]
  · rename_i time
    simp [time]

theorem noLater_trans (a b c : Scheduled) (first : a.noLater b = true)
    (second : b.noLater c = true) : a.noLater c = true := by
  rw [noLater_iff, Before] at *
  rcases lt_trichotomy a.time c.time with earlier | same | later
  · exact .inl (.inl earlier)
  · grind
  · grind

theorem noLater_total (a b : Scheduled) : (a.noLater b || b.noLater a) = true := by
  rw [Bool.or_eq_true, noLater_iff, noLater_iff, Before, Before]
  grind

theorem time_le_of_noLater {a b : Scheduled} (order : a.noLater b = true) : a.time ≤ b.time := by
  rcases noLater_iff.1 order with (earlier | ⟨same, -⟩) | ⟨same, -⟩
  · exact earlier.le
  · exact same.le
  · exact same.le

/-- Where a message stands in the order. -/
def place (s : Scheduled) : Rat × Nat × Nat := (s.time, s.action.priority, s.sequence)

theorem place_eq_of_noLater {a b : Scheduled} (first : a.noLater b = true)
    (second : b.noLater a = true) : a.place = b.place := by
  simp only [noLater_iff, Before] at first second
  simp only [place, Prod.mk.injEq]
  grind

/-- Messages of which no two share a place are sorted in one way only. -/
theorem mergeSort_eq_of_perm {messages queue : List Scheduled} (perm : messages.Perm queue)
    (ordered : queue.Pairwise Before) : messages.mergeSort noLater = queue := by
  have sorted := (List.mergeSort_perm messages noLater).trans perm
  have apart : (queue.map place).Nodup := by
    apply List.pairwise_map.2
    apply ordered.imp
    intro a b before same
    simp only [place, Prod.mk.injEq] at same
    simp [Before, same] at before
  apply sorted.eq_of_pairwise
  · intro a b aMem bMem first second
    exact List.inj_on_of_nodup_map apart (sorted.mem_iff.1 aMem) bMem
      (place_eq_of_noLater first second)
  · exact List.pairwise_mergeSort noLater_trans noLater_total messages
  · exact ordered.imp fun before => noLater_iff.2 (.inl before)

end Scheduled

/-! ## Placed events -/

/-- An audible event on the channel of its instrument, numbered among the audible events. -/
structure Placed where
  event : Event
  channel : Channel
  sequence : Nat

namespace Placed

def attack (x : Placed) : Scheduled :=
  { time := x.event.onset, action := .attack, sequence := x.sequence, channel := x.channel,
    note := x.event.pitch, velocity := x.event.volume }

def release (x : Placed) : Scheduled :=
  { time := x.event.finish, action := .release, sequence := x.sequence, channel := x.channel,
    note := x.event.pitch, velocity := 0 }

def messages (x : Placed) : List Scheduled := [x.attack, x.release]

@[simp] theorem time_attack (x : Placed) : x.attack.time = x.event.onset := rfl

@[simp] theorem time_release (x : Placed) : x.release.time = x.event.finish := rfl

/-- Whether an event is placed on a note of a channel. -/
def isOn (channel : Channel) (note : DataByte) (x : Placed) : Bool :=
  x.channel = channel ∧ x.event.pitch = note.val

/-- Whether an event sounds at a moment.  It no longer does when it ends. -/
def soundsAt (moment : Rat) (x : Placed) : Bool :=
  x.event.onset ≤ moment ∧ moment < x.event.finish

variable {x : Placed} {placed : List Placed}

theorem countP_messages (test : Scheduled → Bool) (placed : List Placed) :
    (placed.flatMap messages).countP test =
      placed.countP (fun x => test x.attack) + placed.countP fun x => test x.release := by
  induction placed with
  | nil => rfl
  | cons x placed ih =>
      rw [List.flatMap_cons, List.countP_append, ih, messages]
      simp only [List.countP_cons, List.countP_nil]
      omega

/-- Messages of events with different numbers are different. -/
theorem nodup_messages (numbered : (placed.map sequence).Nodup) :
    (placed.flatMap messages).Nodup := by
  apply List.nodup_flatMap.2
  constructor
  · intro x member
    simp [messages, attack, release]
  · apply List.Pairwise.imp _ (List.pairwise_map.1 numbered)
    intro x y different m mOfX mOfY
    have number : ∀ z : Placed, m ∈ z.messages → m.sequence = z.sequence := by
      intro z member
      simp only [messages, List.mem_cons, List.not_mem_nil, or_false] at member
      rcases member with rfl | rfl <;> rfl
    exact different ((number x mOfX).symm.trans (number y mOfY))

end Placed

/-! ## Queues -/

/-- Why a performance is not queued: for a cause of its own, or because a number cannot be told. -/
inductive Halt.FromPreparing : Halt → Prop where
  | failed (cause : RenderFailure) : FromPreparing (.failed cause)
  | unwritable : FromPreparing .unwritable

theorem Halt.fromPreparing_told [Limits] (cause : RenderFailure) : (told cause).FromPreparing := by
  rw [told]
  split
  · exact .failed cause
  · exact .unwritable

namespace PatchMap

variable {m placed : PatchMap} {halt : Halt} {i : Instrument} {channel : Channel} {given : Datum}

theorem fromPreparing_of_place (halted : m.place i channel = .error halt) :
    halt.FromPreparing := by
  unfold place at halted
  split at halted
  · split at halted <;> cases halted
    exact .failed _
  · cases halted
    exact .failed _

theorem fromPreparing_of_assign [Limits] {number : Int}
    (halted : m.assign given number = .error halt) :
    halt.FromPreparing := by
  unfold assign at halted
  split at halted
  · obtain rfl := Except.error.inj halted
    exact Halt.fromPreparing_told _
  · split at halted
    · exact fromPreparing_of_place halted
    · obtain rfl := Except.error.inj halted
      exact Halt.fromPreparing_told _

theorem fromPreparing_of_find? (halted : m.find? given = .error halt) : halt.FromPreparing := by
  unfold find? at halted
  split at halted
  · split at halted <;> cases halted
  · cases halted
    exact .failed _

theorem fromPreparing_of_channel [Limits] (halted : m.channel given = .error halt) :
    halt.FromPreparing := by
  rcases bind_eq_error.1 halted with unusable | ⟨held, -, halted⟩
  · exact fromPreparing_of_find? unusable
  · split at halted <;> cases halted
    exact Halt.fromPreparing_told _

theorem fromPreparing_of_assignAll [Limits] {free : List Channel} {names : List Datum}
    (halted : m.assignAll free names = .error halt) : halt.FromPreparing := by
  induction names generalizing m free with
  | nil => cases halted
  | cons name names ih =>
      rw [assignAll.eq_def] at halted
      rcases bind_eq_error.1 halted with unusable | ⟨held, -, halted⟩
      · exact fromPreparing_of_find? unusable
      · cases held with
        | some channel => exact ih halted
        | none =>
            dsimp only at halted
            split at halted
            · rcases bind_eq_error.1 halted with unassigned | ⟨next, -, halted⟩
              · exact fromPreparing_of_assign unassigned
              · exact ih halted
            · cases free with
              | nil =>
                  cases halted
                  exact .failed _
              | cons channel free =>
                  rcases bind_eq_error.1 halted with unassigned | ⟨next, -, halted⟩
                  · exact fromPreparing_of_assign unassigned
                  · exact ih halted

end PatchMap

/-- The audible events of a performance in their order, each on the channel of its instrument. -/
structure Performance.Places (patchMap : PatchMap) (p : Performance) (placed : List Placed) :
    Prop where
  events : placed.map Placed.event = p.events.filter Event.isAudible
  channels : ∀ x ∈ placed, patchMap.named? x.event.instrument = some x.channel
  numbers : placed.map Placed.sequence = List.range placed.length

namespace Performance

variable {patchMap : PatchMap} {p : Performance} {placed : List Placed}

theorem Places.event_mem (places : p.Places patchMap placed) {x : Placed} (member : x ∈ placed) :
    x.event ∈ p.events ∧ x.event.isAudible = true := by
  apply List.mem_filter.1
  rw [← places.events]
  exact List.mem_map_of_mem member

theorem named?_of_channel [Limits] {name : String} {channel : Channel}
    (assigned : patchMap.channel (.text name) = .ok channel) :
    patchMap.named? name = some channel := by
  simp only [PatchMap.channel, PatchMap.find?, Datum.isNameable, if_true, ok_bind] at assigned
  split at assigned
  · rename_i found
    cases assigned
    exact found
  · cases assigned

theorem exists_placed_of_schedule [Limits] {number : Nat} {events : List Event}
    {messages : List Scheduled}
    (scheduled : schedule patchMap number events = .ok messages) :
    ∃ placed : List Placed, messages = placed.flatMap Placed.messages ∧
      placed.map Placed.event = events.filter Event.isAudible ∧
      (∀ x ∈ placed, patchMap.named? x.event.instrument = some x.channel) ∧
      placed.map Placed.sequence = List.range' number placed.length := by
  induction events generalizing number messages with
  | nil =>
      cases scheduled
      exact ⟨[], rfl, rfl, nofun, rfl⟩
  | cons e events ih =>
      rw [schedule] at scheduled
      split at scheduled
      · rename_i audible
        obtain ⟨channel, assigned, scheduled⟩ := bind_eq_ok.1 scheduled
        obtain ⟨others, othersOk, scheduled⟩ := bind_eq_ok.1 scheduled
        cases scheduled
        obtain ⟨placed, rfl, shown, channels, numbers⟩ := ih othersOk
        refine ⟨⟨e, channel, number⟩ :: placed, rfl, ?_, ?_, ?_⟩
        · rw [List.filter_cons_of_pos audible, List.map_cons, shown]
        · intro x member
          rcases List.mem_cons.1 member with rfl | member
          · exact named?_of_channel assigned
          · exact channels x member
        · rw [List.map_cons, numbers, List.length_cons, List.range'_succ]
      · rename_i silent
        split at scheduled
        · rw [List.filter_cons_of_neg silent]
          exact ih scheduled
        · cases scheduled

theorem fromPreparing_of_schedule [Limits] {number : Nat} {events : List Event} {halt : Halt}
    (halted : schedule patchMap number events = .error halt) : halt.FromPreparing := by
  induction events generalizing number with
  | nil => cases halted
  | cons e events ih =>
      rw [schedule] at halted
      split at halted
      · rcases bind_eq_error.1 halted with unassigned | ⟨channel, -, halted⟩
        · exact PatchMap.fromPreparing_of_channel unassigned
        · rcases bind_eq_error.1 halted with others | ⟨messages, -, queued⟩
          · exact ih others
          · cases queued
      · split at halted
        · exact ih halted
        · cases halted
          exact .unwritable

/-- What preparing a performance yields: the messages of its placed events in order. -/
structure Queued (patchMap : PatchMap) (p : Performance) (placed : List Placed)
    (queue : List Scheduled) : Prop where
  places : p.Places patchMap placed
  messages : queue.Perm (placed.flatMap Placed.messages)
  order : queue.Pairwise fun a b => a.noLater b = true
  pitches : ∀ x ∈ placed, 0 ≤ x.event.pitch ∧ x.event.pitch ≤ 127

/-- A performance is prepared only if all its pitches can be played, by sorting its messages. -/
theorem prepare_eq_ok [Limits] {given : Option PatchMap} {queue : List Scheduled}
    (accepted : p.prepare given = .ok (patchMap, queue)) :
    p.firstOutOfRange? = none ∧ ∃ messages, schedule patchMap 0 p.events = .ok messages ∧
      queue = messages.mergeSort Scheduled.noLater := by
  unfold prepare at accepted
  split at accepted
  · cases accepted
  · rename_i inRange
    cases given with
    | some _ | none =>
        obtain ⟨chosen, -, accepted⟩ := bind_eq_ok.1 accepted
        obtain ⟨messages, scheduled, accepted⟩ := bind_eq_ok.1 accepted
        cases accepted
        exact ⟨inRange, messages, scheduled, rfl⟩

/-- A performance whose messages can be put in order is prepared so. -/
theorem prepare_some [Limits] {messages queue : List Scheduled}
    (inRange : p.firstOutOfRange? = none)
    (scheduled : schedule patchMap 0 p.events = .ok messages) (perm : messages.Perm queue)
    (ordered : queue.Pairwise Scheduled.Before) :
    p.prepare (some patchMap) = .ok (patchMap, queue) := by
  rw [prepare, inRange]
  dsimp only
  rw [ok_bind, scheduled, ok_bind, Scheduled.mergeSort_eq_of_perm perm ordered]
  rfl

/-- Whatever is not queued is refused for a cause, unless a number cannot be told. -/
theorem fromPreparing_of_prepare [Limits] {given : Option PatchMap} {halt : Halt}
    (halted : p.prepare given = .error halt) : halt.FromPreparing := by
  unfold prepare at halted
  split at halted
  · obtain rfl := Except.error.inj halted
    exact Halt.fromPreparing_told _
  · cases given with
    | some patchMap =>
        rcases bind_eq_error.1 halted with none | ⟨chosen, -, halted⟩
        · cases none
        · rcases bind_eq_error.1 halted with scheduled | ⟨messages, -, queued⟩
          · exact fromPreparing_of_schedule scheduled
          · cases queued
    | none =>
        rcases bind_eq_error.1 halted with made | ⟨chosen, -, halted⟩
        · exact PatchMap.fromPreparing_of_assignAll made
        · rcases bind_eq_error.1 halted with scheduled | ⟨messages, -, queued⟩
          · exact fromPreparing_of_schedule scheduled
          · cases queued

theorem exists_queued_of_prepare [Limits] {given : Option PatchMap} {queue : List Scheduled}
    (accepted : p.prepare given = .ok (patchMap, queue)) :
    ∃ placed, p.Queued patchMap placed queue := by
  obtain ⟨inRange, messages, scheduled, rfl⟩ := prepare_eq_ok accepted
  obtain ⟨placed, rfl, shown, channels, numbers⟩ := exists_placed_of_schedule scheduled
  rw [← List.range_eq_range'] at numbers
  have places : p.Places patchMap placed := ⟨shown, channels, numbers⟩
  refine ⟨placed, places, List.mergeSort_perm _ _, ?_, ?_⟩
  · exact List.pairwise_mergeSort Scheduled.noLater_trans Scheduled.noLater_total _
  · intro x member
    have within := List.find?_eq_none.1 inRange x.event (places.event_mem member).1
    simpa using within

namespace Queued

variable {queue before after : List Scheduled}

theorem audible (queued : p.Queued patchMap placed queue) {x : Placed} (member : x ∈ placed) :
    0 < x.event.duration ∧ 0 < x.event.volume := by
  simpa [Event.isAudible] using (queued.places.event_mem member).2

theorem onset_lt_finish (queued : p.Queued patchMap placed queue) {x : Placed}
    (member : x ∈ placed) : x.event.onset < x.event.finish :=
  lt_add_of_pos_right _ (queued.audible member).1

theorem nodup (queued : p.Queued patchMap placed queue) : queue.Nodup := by
  apply queued.messages.nodup_iff.2
  apply Placed.nodup_messages
  rw [queued.places.numbers]
  exact List.nodup_range

theorem attack_mem (queued : p.Queued patchMap placed queue) {x : Placed} (member : x ∈ placed) :
    x.attack ∈ queue :=
  queued.messages.mem_iff.2 (List.mem_flatMap.2 ⟨x, member, List.mem_cons_self⟩)

theorem release_mem (queued : p.Queued patchMap placed queue) {x : Placed} (member : x ∈ placed) :
    x.release ∈ queue :=
  queued.messages.mem_iff.2
    (List.mem_flatMap.2 ⟨x, member, List.mem_cons_of_mem _ List.mem_cons_self⟩)

theorem exists_of_mem (queued : p.Queued patchMap placed queue) {m : Scheduled}
    (member : m ∈ queue) : ∃ x ∈ placed, m = x.attack ∨ m = x.release := by
  obtain ⟨x, xMem, ofX⟩ := List.mem_flatMap.1 (queued.messages.mem_iff.1 member)
  refine ⟨x, xMem, ?_⟩
  simpa [Placed.messages] using ofX

/-- Messages are due when an audible event begins or ends. -/
theorem time_of_mem (queued : p.Queued patchMap placed queue) (holds : Rat → Prop)
    (atEvents : ∀ e ∈ p.events, e.isAudible = true → holds e.onset ∧ holds e.finish) {m : Scheduled}
    (member : m ∈ queue) : holds m.time := by
  obtain ⟨x, xMem, ofX⟩ := queued.exists_of_mem member
  obtain ⟨listed, audible⟩ := queued.places.event_mem xMem
  rcases ofX with rfl | rfl
  · exact (atEvents x.event listed audible).1
  · exact (atEvents x.event listed audible).2

/-- No two messages of a queue share a place in the order. -/
theorem pairwise_before (queued : p.Queued patchMap placed queue) :
    queue.Pairwise Scheduled.Before := by
  apply (queued.order.and queued.nodup).imp_of_mem
  intro a b aMem bMem ⟨order, different⟩
  rcases Scheduled.noLater_iff.1 order with before | ⟨-, priority, sequence⟩
  · exact before
  · exfalso
    apply different
    obtain ⟨x, xMem, aOfX⟩ := queued.exists_of_mem aMem
    obtain ⟨y, yMem, bOfY⟩ := queued.exists_of_mem bMem
    have numbered : (placed.map Placed.sequence).Nodup := by
      rw [queued.places.numbers]
      exact List.nodup_range
    have number : x.sequence = y.sequence := by
      rcases aOfX with rfl | rfl <;> rcases bOfY with rfl | rfl <;> exact sequence
    obtain rfl : x = y := List.inj_on_of_nodup_map numbered xMem yMem number
    rcases aOfX with rfl | rfl <;> rcases bOfY with rfl | rfl
    · rfl
    · cases priority
    · cases priority
    · rfl

/-! ## Front parts of a queue -/

/-- Counting in a front part is counting in the placed events which of their messages are in it. -/
theorem countP_front (queued : p.Queued patchMap placed (before ++ after))
    (test : Scheduled → Bool) :
    before.countP test =
      placed.countP (fun x => test x.attack && x.attack ∈ before) +
        placed.countP (fun x => test x.release && x.release ∈ before) := by
  have apart := List.disjoint_of_nodup_append queued.nodup
  have front : before.countP test =
      (before ++ after).countP fun m => test m && m ∈ before := by
    have inside : before.countP (fun m => test m && m ∈ before) = before.countP test := by
      apply List.countP_congr
      intro m member
      simp [member]
    have outside : after.countP (fun m => test m && m ∈ before) = 0 := by
      apply List.countP_eq_zero.2
      intro m member
      have absent : m ∉ before := fun inside => apart inside member
      simp [absent]
    rw [List.countP_append, inside, outside, Nat.add_zero]
  rw [front, queued.messages.countP_eq, Placed.countP_messages]

/-- A release comes after the attack of its event. -/
theorem attack_mem_of_release_mem (queued : p.Queued patchMap placed (before ++ after))
    {x : Placed} (member : x ∈ placed) (released : x.release ∈ before) : x.attack ∈ before := by
  rcases List.mem_append.1 (queued.attack_mem member) with attacked | attacked
  · exact attacked
  · have order := (List.pairwise_append.1 queued.order).2.2 _ released _ attacked
    exact absurd (queued.onset_lt_finish member) (Scheduled.time_le_of_noLater order).not_gt

end Queued

end Performance

/-! ## Messages of a queue -/

namespace Scheduled

variable {s : Scheduled} {m : Message} {action : NoteAction} {channel : Channel} {note : DataByte}

/-- Whether a scheduled message attacks, or releases, a note of a channel. -/
def does (action : NoteAction) (channel : Channel) (note : DataByte) (s : Scheduled) : Bool :=
  s.action = action ∧ s.channel = channel ∧ s.note = note.val

theorem dataByte?_eq_some {n : Int} {byte : DataByte} (inRange : Message.dataByte? n = some byte) :
    n = byte.val := by
  unfold Message.dataByte? at inRange
  split at inRange
  · rename_i bounds
    cases inRange
    exact (Int.toNat_of_nonneg bounds.1).symm
  · cases inRange

/-- A scheduled message does what its message does. -/
theorem does_of_message? (sendable : s.message? = some m) :
    m.does action channel note = s.does action channel note := by
  unfold message? at sendable
  obtain ⟨n, noteByte, sendable⟩ := Option.bind_eq_some_iff.1 sendable
  obtain ⟨velocity, -, sendable⟩ := Option.bind_eq_some_iff.1 sendable
  have same : s.note = note.val ↔ n = note := by
    rw [dataByte?_eq_some noteByte, Fin.ext_iff]
    exact Int.ofNat_inj
  cases scheduled : s.action with
  | attack | release =>
      rw [scheduled] at sendable
      cases sendable
      cases action <;> simp [Message.does, does, scheduled, same]

theorem tally_of_message? {front : List Scheduled} {messages : List Message}
    (sendable : front.map message? = messages.map some) :
    Message.tally action channel note messages = front.countP (does action channel note) := by
  induction front generalizing messages with
  | nil =>
      cases messages with
      | nil => rfl
      | cons m messages => cases sendable
  | cons s front ih =>
      cases messages with
      | nil => cases sendable
      | cons m messages =>
          obtain ⟨first, others⟩ := List.cons_eq_cons.1 sendable
          have counted := ih others
          rw [Message.tally] at counted ⊢
          rw [List.countP_cons, List.countP_cons, counted, does_of_message? first]

theorem exists_messages {front : List Scheduled}
    (sendable : ∀ s ∈ front, s.message?.isSome = true) :
    ∃ sent : List Message, front.map message? = sent.map some := by
  induction front with
  | nil => exact ⟨[], rfl⟩
  | cons s front ih =>
      obtain ⟨m, first⟩ := Option.isSome_iff_exists.1 (sendable s List.mem_cons_self)
      obtain ⟨sent, others⟩ := ih fun s member => sendable s (List.mem_cons_of_mem _ member)
      exact ⟨m :: sent, by rw [List.map_cons, List.map_cons, first, others]⟩

/-- The first messages come from a front part. -/
theorem exists_front {queue : List Scheduled} {first others : List Message}
    (sendable : queue.map message? = (first ++ others).map some) :
    ∃ front rest, queue = front ++ rest ∧ front.map message? = first.map some := by
  rw [List.map_append] at sendable
  obtain ⟨front, rest, split, frontSendable, -⟩ := List.map_eq_append_iff.1 sendable
  exact ⟨front, rest, split, frontSendable⟩

end Scheduled

namespace Performance.Queued

open Message

variable {patchMap : PatchMap} {p : Performance} {placed : List Placed}
variable {before after queue : List Scheduled} {messages : List Message}
variable {channel : Channel} {note : DataByte}

theorem tally_attack (queued : p.Queued patchMap placed (before ++ after))
    (sendable : before.map Scheduled.message? = messages.map some) :
    tally .attack channel note messages =
      placed.countP fun x => x.isOn channel note && x.attack ∈ before := by
  rw [Scheduled.tally_of_message? sendable, queued.countP_front]
  simp [Scheduled.does, Placed.attack, Placed.release, Placed.isOn]

theorem tally_release (queued : p.Queued patchMap placed (before ++ after))
    (sendable : before.map Scheduled.message? = messages.map some) :
    tally .release channel note messages =
      placed.countP fun x => x.isOn channel note && x.release ∈ before := by
  rw [Scheduled.tally_of_message? sendable, queued.countP_front]
  simp [Scheduled.does, Placed.attack, Placed.release, Placed.isOn]

/-- The messages of a front part are balanced. -/
theorem balanced (queued : p.Queued patchMap placed (before ++ after))
    (sendable : before.map Scheduled.message? = messages.map some) : Balanced messages := by
  intro first start channel note
  obtain ⟨others, rfl⟩ := start
  obtain ⟨front, rest, rfl, frontSendable⟩ := Scheduled.exists_front sendable
  rw [List.append_assoc] at queued
  rw [queued.tally_attack frontSendable, queued.tally_release frontSendable]
  apply List.countP_mono_left
  intro x member
  simp only [Bool.and_eq_true, decide_eq_true_eq]
  exact fun ⟨isOn, released⟩ => ⟨isOn, queued.attack_mem_of_release_mem member released⟩

/-- In a whole queue every attack is followed by its release. -/
theorem tally_eq (queued : p.Queued patchMap placed queue)
    (sendable : queue.map Scheduled.message? = messages.map some) (channel : Channel)
    (note : DataByte) :
    tally .attack channel note messages = tally .release channel note messages := by
  rw [← List.append_nil queue] at queued
  rw [queued.tally_attack sendable, queued.tally_release sendable]
  rw [List.append_nil] at queued
  apply List.countP_congr
  intro x member
  simp [queued.attack_mem member, queued.release_mem member]

/-- Volumes of the MIDI range can be sent. -/
theorem isSome_message? (queued : p.Queued patchMap placed queue)
    (soft : ∀ e ∈ p.events, e.volume ≤ 127) : ∀ s ∈ queue, s.message?.isSome = true := by
  intro s member
  obtain ⟨x, xMem, ofX⟩ := queued.exists_of_mem member
  have velocity : 0 ≤ x.event.volume ∧ x.event.volume ≤ 127 :=
    ⟨(queued.audible xMem).2.le, soft x.event (queued.places.event_mem xMem).1⟩
  rcases ofX with rfl | rfl
  · simp [Scheduled.message?, Placed.attack, Message.dataByte?, queued.pitches x xMem, velocity]
  · simp [Scheduled.message?, Placed.release, Message.dataByte?, queued.pitches x xMem]

end Performance.Queued

end MusicAlgebra
