import Mathlib.Algebra.Order.Ring.Rat
import MusicAlgebra.Performance.Event

/-!
# Order of events

Events are compared by their onsets alone, so what order leaves open is how simultaneous events
stand among each other.  A list of events is therefore viewed moment by moment: two lists in order
are equal as soon as they hold the same events, in the same sequence, at every moment.  Sorting and
merging are both described through that view, which makes them comparable.
-/

namespace MusicAlgebra.Event

/-- Events in order of onset. -/
def InOrder (events : List Event) : Prop :=
  events.Pairwise fun first second => first.onset ≤ second.onset

instance (events : List Event) : Decidable (InOrder events) :=
  inferInstanceAs (Decidable (List.Pairwise _ _))

/-- The events that start at a moment, as they stand. -/
def atMoment (moment : Rat) (events : List Event) : List Event :=
  events.filter fun e => e.onset = moment

@[simp] theorem atMoment_nil (moment : Rat) : atMoment moment [] = [] := rfl

@[simp] theorem atMoment_append (moment : Rat) (first second : List Event) :
    atMoment moment (first ++ second) = atMoment moment first ++ atMoment moment second :=
  List.filter_append ..

theorem atMoment_flatten (moment : Rat) (streams : List (List Event)) :
    atMoment moment streams.flatten = streams.flatMap (atMoment moment) := by
  rw [atMoment, List.filter_flatten, List.flatMap_def]
  rfl

theorem atMoment_cons_self (e : Event) (events : List Event) :
    atMoment e.onset (e :: events) = e :: atMoment e.onset events := by
  simp [atMoment]

theorem atMoment_cons_of_ne {moment : Rat} {e : Event} (elsewhere : e.onset ≠ moment)
    (events : List Event) : atMoment moment (e :: events) = atMoment moment events := by
  simp [atMoment, elsewhere]

@[simp] theorem mem_atMoment {moment : Rat} {e : Event} {events : List Event} :
    e ∈ atMoment moment events ↔ e ∈ events ∧ e.onset = moment := by
  simp [atMoment]

theorem atMoment_filter (moment : Rat) (keep : Event → Bool) (events : List Event) :
    atMoment moment (events.filter keep) = (atMoment moment events).filter keep := by
  simp only [atMoment, List.filter_filter, Bool.and_comm]

/-- Nothing starts before the first of some events in order. -/
theorem atMoment_eq_nil_of_lt {moment : Rat} {e : Event} {events : List Event}
    (order : InOrder (e :: events)) (early : moment < e.onset) :
    atMoment moment (e :: events) = [] := by
  refine List.filter_eq_nil_iff.2 fun other member => ?_
  have late : e.onset ≤ other.onset := by
    rcases List.mem_cons.1 member with rfl | member
    · exact le_refl _
    · exact (List.pairwise_cons.1 order).1 other member
  simpa using (lt_of_lt_of_le early late).ne'

/-- Events in order are determined by what happens at every moment. -/
theorem InOrder.eq_of_atMoment {first second : List Event} (firstOrder : InOrder first)
    (secondOrder : InOrder second)
    (same : ∀ moment, atMoment moment first = atMoment moment second) : first = second := by
  induction first generalizing second with
  | nil =>
      cases second with
      | nil => rfl
      | cons d ds =>
          have absurd := same d.onset
          rw [atMoment_cons_self] at absurd
          cases absurd
  | cons e es ih =>
      cases second with
      | nil =>
          have absurd := same e.onset
          rw [atMoment_cons_self] at absurd
          cases absurd
      | cons d ds =>
          -- Neither head can start before the other one, for then it would be missing there.
          have together : e.onset = d.onset := by
            rcases lt_trichotomy e.onset d.onset with before | equal | after
            · have missing := same e.onset
              rw [atMoment_cons_self, atMoment_eq_nil_of_lt secondOrder before] at missing
              cases missing
            · exact equal
            · have missing := same d.onset
              rw [atMoment_cons_self d, atMoment_eq_nil_of_lt firstOrder after] at missing
              cases missing
          have heads := same e.onset
          rw [atMoment_cons_self, together, atMoment_cons_self d] at heads
          have equal : e = d := (List.cons.inj heads).1
          subst equal
          congr 1
          refine ih (List.pairwise_cons.1 firstOrder).2 (List.pairwise_cons.1 secondOrder).2 ?_
          intro moment
          by_cases here : e.onset = moment
          · subst here
            exact (List.cons.inj heads).2
          · have tails := same moment
            rwa [atMoment_cons_of_ne here, atMoment_cons_of_ne here] at tails

/-! ## Sorting -/

/-- Sorting is stable: items that may stand in any order stand as they stood. -/
theorem filter_mergeSort {α : Type} {le : α → α → Bool}
    (trans : ∀ first second third, le first second = true → le second third = true →
      le first third = true)
    (total : ∀ first second, (le first second || le second first) = true) {keep : α → Bool}
    (tied : ∀ first second, keep first = true → keep second = true → le first second = true)
    (items : List α) : (items.mergeSort le).filter keep = items.filter keep := by
  have order : (items.filter keep).Pairwise fun first second => le first second = true := by
    refine List.pairwise_of_forall_mem_list fun first firstMem second secondMem => ?_
    exact tied first second (List.mem_filter.1 firstMem).2 (List.mem_filter.1 secondMem).2
  have inside : (items.filter keep).Sublist (items.mergeSort le) :=
    List.sublist_mergeSort trans total order List.filter_sublist
  have kept : (items.filter keep).Sublist ((items.mergeSort le).filter keep) := by
    have filtered := inside.filter keep
    simpa only [List.filter_filter, Bool.and_self] using filtered
  have many : ((items.mergeSort le).filter keep).length = (items.filter keep).length :=
    ((List.mergeSort_perm items le).filter _).length_eq
  exact (kept.eq_of_length many.symm).symm

theorem noLater_iff {first second : Event} :
    first.noLater second = true ↔ first.onset ≤ second.onset := by
  simp [noLater]

theorem noLater_trans (first second third : Event) (earlier : first.noLater second = true)
    (later : second.noLater third = true) : first.noLater third = true :=
  noLater_iff.2 ((noLater_iff.1 earlier).trans (noLater_iff.1 later))

theorem noLater_total (first second : Event) :
    (first.noLater second || second.noLater first) = true := by
  simpa [noLater] using le_total first.onset second.onset

/-- Order in the Boolean form in which sorting and merging state it. -/
theorem inOrder_iff {events : List Event} :
    InOrder events ↔ events.Pairwise fun first second => first.noLater second = true := by
  simp only [InOrder, noLater_iff]

theorem inOrder_sort (events : List Event) : InOrder (sort events) :=
  inOrder_iff.2 (List.pairwise_mergeSort noLater_trans noLater_total events)

/-- Sorting is stable: simultaneous events stand as they stood. -/
@[simp] theorem atMoment_sort (moment : Rat) (events : List Event) :
    atMoment moment (sort events) = atMoment moment events := by
  apply filter_mergeSort noLater_trans noLater_total
  intro first second here there
  rw [decide_eq_true_eq] at here there
  exact noLater_iff.2 (here.trans there.symm).le

theorem sort_of_inOrder {events : List Event} (order : InOrder events) : sort events = events :=
  List.mergeSort_of_pairwise (inOrder_iff.1 order)

@[simp] theorem mem_sort {e : Event} {events : List Event} : e ∈ sort events ↔ e ∈ events :=
  List.mem_mergeSort

/-- Events may be left out before sorting or after it. -/
theorem filter_sort (keep : Event → Bool) (events : List Event) :
    (sort events).filter keep = sort (events.filter keep) := by
  have order : InOrder ((sort events).filter keep) := (inOrder_sort events).filter keep
  apply order.eq_of_atMoment (inOrder_sort _)
  intro moment
  rw [atMoment_filter, atMoment_sort, atMoment_sort, atMoment_filter]

/-! ## Events that last -/

/-- Some events without those that do not last for any time. -/
def lasting (events : List Event) : List Event := events.filter fun e => 0 < e.duration

theorem lasting_append (events others : List Event) :
    lasting (events ++ others) = lasting events ++ lasting others :=
  List.filter_append ..

theorem lasting_perm {events others : List Event} (same : events.Perm others) :
    (lasting events).Perm (lasting others) :=
  same.filter _

/-! ## Merging -/

theorem noLater_of_not {first second : Event} (later : ¬ first.noLater second = true) :
    second.noLater first = true := by
  rw [noLater_iff] at later ⊢
  exact (lt_of_not_ge later).le

/-- Merging is associative, also for streams that are not in order: of three heads the earliest one
comes first, however the streams are grouped. -/
theorem merge_pair_assoc (first second third : List Event) :
    (first.merge second noLater).merge third noLater =
      first.merge (second.merge third noLater) noLater := by
  induction first generalizing second third with
  | nil => simp
  | cons a as firstIH =>
      induction second generalizing third with
      | nil => simp
      | cons b bs secondIH =>
          induction third with
          | nil => simp
          | cons c cs thirdIH =>
              by_cases beforeThird : b.noLater c = true
              · by_cases beforeSecond : a.noLater b = true
                · have beforeAll := noLater_trans a b c beforeSecond beforeThird
                  simp [beforeThird, beforeSecond, beforeAll, firstIH]
                · simp [beforeThird, beforeSecond, secondIH]
              · by_cases firstLeads : a.noLater c = true
                · have beforeSecond := noLater_trans a c b firstLeads (noLater_of_not beforeThird)
                  simp [beforeThird, firstLeads, beforeSecond, firstIH]
                · by_cases beforeSecond : a.noLater b = true
                  · simpa [beforeThird, firstLeads, beforeSecond] using thirdIH
                  · simpa [beforeThird, firstLeads, beforeSecond] using thirdIH

/-- So the streams of a part of the whole may be merged first. -/
theorem merge_append (streams others : List (List Event)) :
    merge (streams ++ others) = (merge streams).merge (merge others) noLater := by
  induction streams with
  | nil => simp
  | cons stream streams ih => rw [List.cons_append, merge_cons, merge_cons, ih, merge_pair_assoc]

theorem inOrder_merge {streams : List (List Event)}
    (orders : ∀ stream ∈ streams, InOrder stream) : InOrder (merge streams) := by
  induction streams with
  | nil => exact .nil
  | cons stream streams ih =>
      have others := ih fun other member => orders other (List.mem_cons_of_mem stream member)
      exact inOrder_iff.2 (List.pairwise_merge noLater_trans noLater_total _ _
        (inOrder_iff.1 (orders stream List.mem_cons_self)) (inOrder_iff.1 others))

/-- Two streams merged: the events of the first one win every tie. -/
theorem atMoment_merge_pair (moment : Rat) {first : List Event} (order : InOrder first)
    (second : List Event) :
    atMoment moment (first.merge second noLater) =
      atMoment moment first ++ atMoment moment second := by
  induction first generalizing second with
  | nil => simp
  | cons e es ih =>
      have tailOrder : InOrder es := (List.pairwise_cons.1 order).2
      induction second with
      | nil => simp
      | cons d ds inner =>
          rw [List.cons_merge_cons]
          by_cases first : e.noLater d = true
          · rw [if_pos first]
            by_cases here : e.onset = moment
            · subst here
              rw [atMoment_cons_self, atMoment_cons_self, ih tailOrder, List.cons_append]
            · rw [atMoment_cons_of_ne here, atMoment_cons_of_ne here, ih tailOrder]
          · rw [if_neg first]
            have late : d.onset < e.onset := by
              rw [noLater_iff] at first
              exact lt_of_not_ge first
            by_cases here : d.onset = moment
            · subst here
              rw [atMoment_cons_self, inner, atMoment_eq_nil_of_lt order late, atMoment_cons_self]
              rfl
            · rw [atMoment_cons_of_ne here, atMoment_cons_of_ne here, inner]

/-- Streams in order merged: at every moment the earlier streams come first. -/
theorem atMoment_merge (moment : Rat) {streams : List (List Event)}
    (orders : ∀ stream ∈ streams, InOrder stream) :
    atMoment moment (merge streams) = atMoment moment streams.flatten := by
  induction streams with
  | nil => rfl
  | cons stream streams ih =>
      rw [merge_cons, atMoment_merge_pair moment (orders stream List.mem_cons_self),
        ih fun other member => orders other (List.mem_cons_of_mem stream member),
        List.flatten_cons, atMoment_append]

/-- Merging streams in order is sorting what they hold together. -/
theorem merge_eq_sort {streams : List (List Event)}
    (orders : ∀ stream ∈ streams, InOrder stream) : merge streams = sort streams.flatten := by
  apply (inOrder_merge orders).eq_of_atMoment (inOrder_sort _)
  intro moment
  rw [atMoment_merge moment orders, atMoment_sort]

theorem merge_pair_eq_sort {first second : List Event} (firstOrder : InOrder first)
    (secondOrder : InOrder second) : first.merge second noLater = sort (first ++ second) := by
  have merged : merge [first, second] = sort [first, second].flatten := by
    apply merge_eq_sort
    simp [firstOrder, secondOrder]
  simpa using merged

end MusicAlgebra.Event
