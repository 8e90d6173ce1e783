import MusicAlgebra.Proofs.QueueOrder

/-!
# Polyphony

An event is held in a front part of a queue if its attack is there and its release is not.  In the
front part up to a moment the events that are held are those that sound at the moment.  Where the
events of a note do not overlap at most one of them is ever held, and so the messages of the note
alternate.
-/

namespace MusicAlgebra

/-- In a list where a test holds of a front part, it is this part where it holds. -/
theorem mem_takeWhile_iff {α : Type} {test : α → Bool} {items : List α}
    (front : items.Pairwise fun a b => test b = true → test a = true) {a : α} :
    a ∈ items.takeWhile test ↔ a ∈ items ∧ test a = true := by
  induction items with
  | nil => simp
  | cons first items ih =>
      obtain ⟨earlier, front⟩ := List.pairwise_cons.1 front
      by_cases holds : test first = true
      · rw [List.takeWhile_cons_of_pos holds, List.mem_cons, List.mem_cons, ih front]
        grind
      · rw [List.takeWhile_cons_of_neg holds]
        constructor
        · exact nofun
        · rintro ⟨member, holdsLater⟩
          rcases List.mem_cons.1 member with rfl | member
          · exact absurd holdsLater holds
          · exact absurd (earlier a member holdsLater) holds

/-- A test that holds of no two items holds of one at most. -/
theorem countP_le_one {α : Type} {test : α → Bool} {items : List α}
    (single : items.Pairwise fun a b => test a = true → ¬test b = true) :
    items.countP test ≤ 1 := by
  induction items with
  | nil => exact Nat.zero_le 1
  | cons first items ih =>
      obtain ⟨others, single⟩ := List.pairwise_cons.1 single
      by_cases holds : test first = true
      · have none : items.countP test = 0 :=
          List.countP_eq_zero.2 fun b member => others b member holds
        rw [List.countP_cons_of_pos holds, none]
      · rw [List.countP_cons_of_neg holds]
        exact ih single

/-! ## Held events -/

namespace Placed

/-- Whether an event has been attacked and not released. -/
def isHeld (before : List Scheduled) (x : Placed) : Bool :=
  x.attack ∈ before ∧ x.release ∉ before

/-- No two events on a note of a channel overlap. -/
def Apart (channel : Channel) (note : DataByte) (placed : List Placed) : Prop :=
  placed.Pairwise fun x y => x.isOn channel note = true → y.isOn channel note = true →
    x.event.finish ≤ y.event.onset ∨ y.event.finish ≤ x.event.onset

end Placed

namespace Performance.Queued

open Message

variable {p : Performance} {patchMap : PatchMap} {placed : List Placed}
variable {before after queue : List Scheduled} {messages : List Message}
variable {channel : Channel} {note : DataByte}

/-- The attacks that exceed the releases are those of the events that are held. -/
theorem tally_attack_eq_add (queued : p.Queued patchMap placed (before ++ after))
    (sendable : before.map Scheduled.message? = messages.map some) (channel : Channel)
    (note : DataByte) :
    tally .attack channel note messages =
      placed.countP (fun x => x.isOn channel note && x.isHeld before) +
        tally .release channel note messages := by
  rw [queued.tally_attack sendable, queued.tally_release sendable,
    List.countP_eq_countP_filter_add placed _ fun x => x.release ∉ before, List.countP_filter,
    List.countP_filter]
  congr 1
  · apply List.countP_congr
    intro x member
    simp [Placed.isHeld, and_assoc]
  · apply List.countP_congr
    intro x member
    -- A release that is there has its attack there, so asking for the attack adds nothing.
    have attacked : x.release ∈ before → x.attack ∈ before :=
      queued.attack_mem_of_release_mem member
    simp only [Bool.and_eq_true, decide_eq_true_eq, Bool.not_eq_true', decide_eq_false_iff_not,
      not_not]
    grind

/-- Up to a moment, the events that are held are those that sound. -/
theorem isHeld_takeWhile (queued : p.Queued patchMap placed queue) {x : Placed}
    (member : x ∈ placed) (moment : Rat) :
    x.isHeld (queue.takeWhile fun m => m.time ≤ moment) = x.soundsAt moment := by
  have front : queue.Pairwise fun a b =>
      decide (b.time ≤ moment) = true → decide (a.time ≤ moment) = true := by
    apply queued.order.imp
    intro a b order
    simp only [decide_eq_true_eq]
    exact (Scheduled.time_le_of_noLater order).trans
  rw [Placed.isHeld, Placed.soundsAt, decide_eq_decide, mem_takeWhile_iff front,
    mem_takeWhile_iff front]
  simp only [decide_eq_true_eq]
  simp [queued.attack_mem member, queued.release_mem member]

/-- An attack stands before a release only if its event begins before the other one ends. -/
theorem onset_lt_finish_of_mem (queued : p.Queued patchMap placed (before ++ after)) {x y : Placed}
    (attacked : x.attack ∈ before) (unreleased : y.release ∈ after) :
    x.event.onset < y.event.finish := by
  rcases (List.pairwise_append.1 queued.pairwise_before).2.2 _ attacked _ unreleased with
    earlier | ⟨-, priority | ⟨priority, -⟩⟩
  · exact earlier
  · exact absurd priority (Nat.not_lt_zero _)
  · exact absurd priority Nat.one_ne_zero

/-- Where events do not overlap, at most one of them is held. -/
theorem countP_isHeld_le_one (queued : p.Queued patchMap placed (before ++ after))
    (apart : Placed.Apart channel note placed) :
    placed.countP (fun x => x.isOn channel note && x.isHeld before) ≤ 1 := by
  apply countP_le_one
  apply apart.imp_of_mem
  intro x y xMem yMem disjoint xHeld yHeld
  obtain ⟨xOn, xHeld⟩ := Bool.and_eq_true_iff.1 xHeld
  obtain ⟨yOn, yHeld⟩ := Bool.and_eq_true_iff.1 yHeld
  obtain ⟨xAttacked, xUnreleased⟩ := of_decide_eq_true xHeld
  obtain ⟨yAttacked, yUnreleased⟩ := of_decide_eq_true yHeld
  -- Each of two held events begins before the other one ends.
  have xLater := (List.mem_append.1 (queued.release_mem xMem)).resolve_left xUnreleased
  have yLater := (List.mem_append.1 (queued.release_mem yMem)).resolve_left yUnreleased
  rcases disjoint xOn yOn with xFirst | yFirst
  · exact absurd (queued.onset_lt_finish_of_mem yAttacked xLater) xFirst.not_gt
  · exact absurd (queued.onset_lt_finish_of_mem xAttacked yLater) yFirst.not_gt

end Performance.Queued

/-! ## Alternation -/

/-- What a message does to a note of a channel, if anything. -/
def Message.actionOn? (channel : Channel) (note : DataByte) (m : Message) : Option NoteAction :=
  if m.does .attack channel note then some .attack
  else if m.does .release channel note then some .release
  else none

theorem Message.count_actionOn? (action : NoteAction) (channel : Channel) (note : DataByte)
    (messages : List Message) :
    (messages.filterMap (actionOn? channel note)).count action =
      tally action channel note messages := by
  rw [List.count, List.countP_filterMap, tally]
  apply List.countP_congr
  intro m member
  cases m with
  | programChange c program => simp [actionOn?, does]
  | noteOn c n velocity | noteOff c n velocity =>
      by_cases same : c = channel ∧ n = note
      · cases action <;> simp [actionOn?, does, same]
      · simp [actionOn?, does, same]

/-- Actions alternate if no front part of them has more releases than attacks, or more attacks than
releases and one. -/
theorem NoteAction.alternate (actions : List NoteAction)
    (front : ∀ before, before <+: actions → before.count .release ≤ before.count .attack ∧
      before.count .attack ≤ before.count .release + 1)
    (whole : actions.count .attack = actions.count .release) :
    ∃ n, actions = (List.replicate n [attack, release]).flatten := by
  -- The first two actions can only be an attack and its release; the rest is as before.
  match actions with
  | [] => exact ⟨0, rfl⟩
  | .release :: actions =>
      have one := (front [release] (List.prefix_append _ actions)).1
      exact absurd one (by decide)
  | [.attack] => exact absurd whole (by decide)
  | .attack :: .attack :: actions =>
      have two := (front [attack, attack] (List.prefix_append _ actions)).2
      exact absurd two (by decide)
  | .attack :: .release :: actions =>
      have later : ∀ before, before <+: actions → before.count .release ≤ before.count .attack ∧
          before.count .attack ≤ before.count .release + 1 := by
        intro before start
        have longer := front (attack :: release :: before)
          ((List.prefix_append_right_inj [attack, release]).2 start)
        simpa using longer
      obtain ⟨n, rfl⟩ := alternate actions later (by simpa using whole)
      exact ⟨n + 1, rfl⟩

/-- Where the events of a note do not overlap, its messages alternate. -/
theorem Performance.Queued.alternate {p : Performance} {patchMap : PatchMap} {placed : List Placed}
    {queue : List Scheduled} {sent : List Message} {channel : Channel} {note : DataByte}
    (queued : p.Queued patchMap placed queue)
    (sendable : queue.map Scheduled.message? = sent.map some)
    (apart : Placed.Apart channel note placed) :
    ∃ n, sent.filterMap (Message.actionOn? channel note) =
      (List.replicate n [.attack, .release]).flatten := by
  apply NoteAction.alternate
  · rintro before ⟨others, split⟩
    obtain ⟨first, last, rfl, rfl, -⟩ := List.filterMap_eq_append_iff.1 split.symm
    obtain ⟨front, rest, rfl, frontSendable⟩ := Scheduled.exists_front sendable
    have counted := queued.tally_attack_eq_add frontSendable channel note
    have single := queued.countP_isHeld_le_one apart
    rw [Message.count_actionOn?, Message.count_actionOn?]
    omega
  · rw [Message.count_actionOn?, Message.count_actionOn?]
    exact queued.tally_eq sendable channel note

end MusicAlgebra
