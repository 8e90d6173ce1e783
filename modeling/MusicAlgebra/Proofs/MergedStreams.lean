import Mathlib.Tactic.NormNum
import MusicAlgebra.Proofs.EventOrder

/-!
# Merging as a course of draws

Merging is defined stream by stream, each merged with what the later ones come to.  Here it is
described as it proceeds: event by event, each drawn from the stream whose head is the earliest, the
earlier stream winning a tie.  There is exactly one such course, whatever the streams hold, and it
spends every stream in its own order.  For streams in order the merged events are the sorted ones.
-/

namespace MusicAlgebra.Event

variable {streams : List (List Event)} {place : Nat} {e : Event} {others : List Event}
  {draws : List (Nat × Event)}

/-- The stream at a place leads: its head `e`, which `others` follow, is earlier than the heads of
the streams before it and no later than those of the streams after it. -/
structure Leads (streams : List (List Event)) (place : Nat) (e : Event) (others : List Event) :
    Prop where
  head : streams[place]? = some (e :: others)
  before : ∀ (i : Nat) (d : Event) ds, i < place → streams[i]? = some (d :: ds) → e.onset < d.onset
  after : ∀ (i : Nat) (d : Event) ds, place < i → streams[i]? = some (d :: ds) → e.onset ≤ d.onset

/-- A course that spends the streams: every draw takes the head of the stream that leads.  Each
event is noted with the place of the stream that it is drawn from. -/
inductive Draws : List (List Event) → List (Nat × Event) → Prop where
  | spent {streams : List (List Event)} (empty : ∀ stream ∈ streams, stream = []) :
      Draws streams []
  | draw {streams : List (List Event)} {place : Nat} {e : Event} {others : List Event}
      {draws : List (Nat × Event)} (leads : Leads streams place e others)
      (rest : Draws (streams.set place others) draws) : Draws streams ((place, e) :: draws)

/-- What is drawn from the stream at a place. -/
def drawnFrom (place : Nat) (draws : List (Nat × Event)) : List Event :=
  (draws.filter fun draw => draw.1 = place).map Prod.snd

theorem drawnFrom_cons_self (place : Nat) (e : Event) (draws : List (Nat × Event)) :
    drawnFrom place ((place, e) :: draws) = e :: drawnFrom place draws := by
  simp [drawnFrom]

theorem drawnFrom_cons_of_ne {place other : Nat} (elsewhere : place ≠ other) (e : Event)
    (draws : List (Nat × Event)) :
    drawnFrom other ((place, e) :: draws) = drawnFrom other draws := by
  simp [drawnFrom, elsewhere]

/-! ## The stream that leads -/

/-- No head is earlier than that of the stream that leads. -/
theorem Leads.le (leads : Leads streams place e others) {i : Nat} {d : Event} {ds : List Event}
    (head : streams[i]? = some (d :: ds)) : e.onset ≤ d.onset := by
  rcases lt_trichotomy i place with earlier | rfl | later
  · exact (leads.before i d ds earlier head).le
  · rw [leads.head] at head
    cases head
    exact le_refl _
  · exact leads.after i d ds later head

theorem Leads.unique {place' : Nat} {e' : Event} {others' : List Event}
    (leads : Leads streams place e others) (leads' : Leads streams place' e' others') :
    place = place' ∧ e = e' ∧ others = others' := by
  have same : place = place' := by
    rcases lt_trichotomy place place' with earlier | same | later
    · exact absurd (leads'.before place e others earlier leads.head)
        (not_lt_of_ge (leads.le leads'.head))
    · exact same
    · exact absurd (leads.before place' e' others' later leads'.head)
        (not_lt_of_ge (leads'.le leads.head))
  subst same
  have heads := leads.head.symm.trans leads'.head
  cases heads
  exact ⟨rfl, rfl, rfl⟩

/-- A first stream leads if no other head is earlier. -/
theorem Leads.first
    (earliest : ∀ (i : Nat) (d : Event) ds, streams[i]? = some (d :: ds) → e.onset ≤ d.onset) :
    Leads ((e :: others) :: streams) 0 e others where
  head := rfl
  before i d ds earlier _ := absurd earlier i.not_lt_zero
  after i d ds later head := by
    obtain ⟨i, rfl⟩ := Nat.exists_eq_add_one_of_ne_zero later.ne'
    exact earliest i d ds head

/-- The stream that leads still does so behind a stream whose head is later. -/
theorem Leads.behind {stream : List Event} (leads : Leads streams place e others)
    (late : ∀ (d : Event) ds, stream = d :: ds → e.onset < d.onset) :
    Leads (stream :: streams) (place + 1) e others where
  head := leads.head
  before i d ds earlier head := by
    cases i with
    | zero => exact late d ds (Option.some.inj head)
    | succ i => exact leads.before i d ds (Nat.lt_of_succ_lt_succ earlier) head
  after i d ds later head := by
    cases i with
    | zero => exact absurd later (Nat.not_lt_zero _)
    | succ i => exact leads.after i d ds (Nat.lt_of_succ_lt_succ later) head

/-- Unless all streams are spent, one of them leads. -/
theorem exists_leads (more : ∃ stream ∈ streams, stream ≠ []) :
    ∃ place e others, Leads streams place e others := by
  induction streams with
  | nil => simp at more
  | cons stream streams ih =>
      cases stream with
      | nil =>
          have later : ∃ stream ∈ streams, stream ≠ [] := by simpa using more
          obtain ⟨place, e, others, leads⟩ := ih later
          exact ⟨place + 1, e, others, leads.behind nofun⟩
      | cons d ds =>
          by_cases later : ∃ stream ∈ streams, stream ≠ []
          · obtain ⟨place, e, others, leads⟩ := ih later
            by_cases first : d.onset ≤ e.onset
            · exact ⟨0, d, ds, .first fun i c cs head => first.trans (leads.le head)⟩
            · refine ⟨place + 1, e, others, leads.behind ?_⟩
              rintro _ _ ⟨⟩
              exact lt_of_not_ge first
          · -- Nothing is left to compare the first head with.
            refine ⟨0, d, ds, .first fun i c cs head => ?_⟩
            exact absurd ⟨c :: cs, List.mem_of_getElem? head, List.cons_ne_nil c cs⟩ later

/-! ## One draw -/

/-- What is merged first is the head of a stream. -/
theorem exists_head_of_merge {events : List Event} (merged : merge streams = e :: events) :
    ∃ (i : Nat) (ds : List Event), streams[i]? = some (e :: ds) := by
  induction streams generalizing events with
  | nil => cases merged
  | cons stream streams ih =>
      rw [merge_cons] at merged
      cases stream with
      | nil =>
          rw [List.nil_merge] at merged
          obtain ⟨i, ds, head⟩ := ih merged
          exact ⟨i + 1, ds, head⟩
      | cons d ds =>
          cases later : merge streams with
          | nil =>
              rw [later, List.merge_right] at merged
              cases merged
              exact ⟨0, _, rfl⟩
          | cons c cs =>
              rw [later, List.cons_merge_cons] at merged
              split at merged
              · cases merged
                exact ⟨0, ds, rfl⟩
              · cases merged
                obtain ⟨i, ds, head⟩ := ih later
                exact ⟨i + 1, ds, head⟩

/-- One draw: the head of the stream that leads comes first, and what is left is merged. -/
theorem Leads.merge_eq (leads : Leads streams place e others) :
    merge streams = e :: merge (streams.set place others) := by
  induction streams generalizing place with
  | nil => cases leads.head
  | cons stream streams ih =>
      cases place with
      | zero =>
          obtain rfl : stream = e :: others := Option.some.inj leads.head
          rw [List.set_cons_zero, merge_cons, merge_cons]
          cases later : merge streams with
          | nil => rw [List.merge_right, List.merge_right]
          | cons d ds =>
              obtain ⟨i, ds', head⟩ := exists_head_of_merge later
              have first : e.noLater d = true :=
                noLater_iff.2 (leads.after (i + 1) d ds' i.succ_pos head)
              rw [List.cons_merge_cons, if_pos first]
      | succ place =>
          have inside : Leads streams place e others :=
            { head := leads.head
              before := fun i d ds earlier => leads.before (i + 1) d ds (Nat.succ_lt_succ earlier)
              after := fun i d ds later => leads.after (i + 1) d ds (Nat.succ_lt_succ later) }
          rw [List.set_cons_succ, merge_cons, merge_cons, ih inside]
          cases stream with
          | nil => rw [List.nil_merge, List.nil_merge]
          | cons d ds =>
              have late : ¬ d.noLater e = true := by
                rw [noLater_iff]
                exact not_le_of_gt (leads.before 0 d ds place.succ_pos rfl)
              rw [List.cons_merge_cons, if_neg late]

theorem eq_nil_of_merge_eq_nil (merged : merge streams = []) : ∀ stream ∈ streams, stream = [] := by
  have none : streams.flatten = [] := (merged ▸ merge_perm streams).symm.eq_nil
  exact List.flatten_eq_nil_iff.1 none

/-! ## The whole course -/

/-- There is a course of draws, and merging lists what is drawn. -/
theorem exists_draws (streams : List (List Event)) :
    ∃ draws, Draws streams draws ∧ merge streams = draws.map Prod.snd := by
  induction merged : merge streams generalizing streams with
  | nil => exact ⟨[], .spent (eq_nil_of_merge_eq_nil merged), rfl⟩
  | cons first events ih =>
      have more : ∃ stream ∈ streams, stream ≠ [] := by
        obtain ⟨i, ds, head⟩ := exists_head_of_merge merged
        exact ⟨first :: ds, List.mem_of_getElem? head, List.cons_ne_nil first ds⟩
      obtain ⟨place, e, others, leads⟩ := exists_leads more
      rw [leads.merge_eq] at merged
      cases merged
      obtain ⟨draws, rest, listed⟩ := ih (streams.set place others) rfl
      exact ⟨(place, first) :: draws, .draw leads rest, congrArg (first :: ·) listed⟩

theorem Draws.unique {other : List (Nat × Event)} (course : Draws streams draws)
    (course' : Draws streams other) : draws = other := by
  induction course generalizing other with
  | spent empty =>
      cases course' with
      | spent => rfl
      | draw leads => cases empty _ (List.mem_of_getElem? leads.head)
  | draw leads rest ih =>
      cases course' with
      | spent empty => cases empty _ (List.mem_of_getElem? leads.head)
      | draw leads' rest' =>
          obtain ⟨rfl, rfl, rfl⟩ := leads.unique leads'
          rw [ih rest']

/-- From every stream all of its events are drawn, in their order. -/
theorem Draws.drawnFrom_eq (course : Draws streams draws) (place : Nat) :
    drawnFrom place draws = streams[place]?.getD [] := by
  induction course with
  | @spent streams empty =>
      cases found : streams[place]? with
      | none => rfl
      | some stream => exact (empty stream (List.mem_of_getElem? found)).symm
  | @draw streams source e others draws leads rest ih =>
      by_cases here : source = place
      · subst here
        have inside := (List.getElem?_eq_some_iff.1 leads.head).1
        rw [drawnFrom_cons_self, ih, List.getElem?_set_self inside, leads.head]
        rfl
      · rw [drawnFrom_cons_of_ne here, ih, List.getElem?_set_ne here]

/-! ## Grouping -/

/-- Streams may be merged group by group first. -/
theorem merge_map_merge (groups : List (List (List Event))) :
    merge (groups.map merge) = merge groups.flatten := by
  induction groups with
  | nil => rfl
  | cons group groups ih => rw [List.map_cons, merge_cons, ih, List.flatten_cons, merge_append]

/-- Merging draws event by event from the stream that leads.  The course of draws is determined by
the streams, in order or not; merging lists what is drawn, and from every stream all of its events
are drawn in their order.  For streams in order this is sorting what they hold together, and
simultaneous events stand in the order of their streams.  It makes no difference how streams are
grouped. -/
theorem merge_draws :
    (∀ streams, ∃ draws, (∀ other, Draws streams other ↔ other = draws) ∧
        merge streams = draws.map Prod.snd ∧
        ∀ place, drawnFrom place draws = streams[place]?.getD []) ∧
      (∀ streams, (∀ stream ∈ streams, InOrder stream) →
        merge streams = sort streams.flatten ∧
          ∀ moment, atMoment moment (merge streams) = streams.flatMap (atMoment moment)) ∧
      (∀ first second third,
        merge [merge [first, second], third] = merge [first, merge [second, third]]) ∧
      ∀ groups : List (List (List Event)), merge (groups.map merge) = merge groups.flatten := by
  refine ⟨?_, ?_, ?_, merge_map_merge⟩
  · intro streams
    obtain ⟨draws, course, listed⟩ := exists_draws streams
    refine ⟨draws, fun other => ⟨fun course' => course'.unique course, ?_⟩, listed,
      course.drawnFrom_eq⟩
    rintro rfl
    exact course
  · intro streams orders
    refine ⟨merge_eq_sort orders, fun moment => ?_⟩
    rw [atMoment_merge moment orders, atMoment_flatten]
  · intro first second third
    simp only [merge_cons, merge_nil, List.merge_right, merge_pair_assoc]

/-- Four voices, one of them silent; the others meet at the end. -/
def voices : List (List Event) :=
  [[⟨0, 1, 60, 100, "violin"⟩, ⟨2, 1, 62, 100, "violin"⟩], [],
    [⟨1, 1, 55, 100, "viola"⟩, ⟨2, 1, 57, 100, "viola"⟩],
    [⟨0, 1, 48, 100, "cello"⟩, ⟨2, 1, 50, 100, "cello"⟩]]

theorem voices_merged :
    (∀ stream ∈ voices, InOrder stream) ∧
      (merge voices).map pitch = [60, 48, 55, 62, 57, 50] ∧
      (∃ draws, Draws voices draws ∧ merge voices = draws.map Prod.snd ∧
        (drawnFrom 2 draws).map pitch = [55, 57]) ∧
      merge voices = sort voices.flatten ∧
      (atMoment 2 (merge voices)).map pitch = [62, 57, 50] := by
  have orders : ∀ stream ∈ voices, InOrder stream := by decide +kernel
  obtain ⟨courses, sorted, -, -⟩ := merge_draws
  obtain ⟨draws, course, listed, shares⟩ := courses voices
  obtain ⟨merged, simultaneous⟩ := sorted voices orders
  refine ⟨orders, ?_, ⟨draws, (course draws).2 rfl, listed, ?_⟩, merged, ?_⟩
  · norm_num [voices, noLater]
  · rw [shares]
    rfl
  · rw [simultaneous]
    decide +kernel

end MusicAlgebra.Event
