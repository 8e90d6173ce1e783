import MusicAlgebra.Proofs.ContainedPerformance
import MusicAlgebra.Proofs.RepeatedCuts
import MusicAlgebra.Proofs.RetimedPerformance

/-!
# Performing a cut piece

A cut of a score is heard as a cut of its events.  The beginning of a piece sounds what starts
before the cut, and stops there; the rest sounds what is left behind the cut, earlier by what has
been left out.  This is so as long as notes sound as they are written: no phrase reshapes them, and
no player shortens or lengthens them.
-/

namespace MusicAlgebra

open Outcome Event

variable {players : Registry} {c : Context}

/-! ## Notes that sound as they are written -/

/-- A registry of players that sound every note as long as it is written. -/
def Registry.Literal [Limits] (players : Registry) : Prop :=
  ∀ name player, players.resolve name = .ok player →
    player = .builtIn .literal ∨ player = .builtIn .fancy

theorem Registry.literal_of_entries [Limits]
    (each : ∀ entry ∈ players.entries, entry.2 = .builtIn .literal ∨ entry.2 = .builtIn .fancy) :
    players.Literal := by
  intro name player resolved
  obtain ⟨text, member⟩ := exists_entry_of_resolve resolved
  exact each (text, player) member

theorem Registry.Literal.noOverhang [Limits] (literal : players.Literal) : players.NoOverhang := by
  intro name player resolved
  rcases literal name player resolved with rfl | rfl
  · exact ⟨.literal, rfl, trivial⟩
  · exact ⟨.fancy, rfl, trivial⟩

theorem Registry.Literal.builtIn [Limits] (literal : players.Literal) : players.BuiltIn :=
  literal.noOverhang.builtIn

namespace Music

/-- Music without phrases. -/
def Unphrased (m : Music) : Prop := ∀ attributes, .phrase attributes ∉ m.modifiers

variable {left right inner : Music} {modifier : Modifier}

theorem unphrased_sequential :
    (sequential left right).Unphrased ↔ left.Unphrased ∧ right.Unphrased := by
  simp only [Unphrased, modifiers_sequential, List.mem_append, not_or, forall_and]

theorem unphrased_parallel :
    (parallel left right).Unphrased ↔ left.Unphrased ∧ right.Unphrased := by
  simp only [Unphrased, modifiers_parallel, List.mem_append, not_or, forall_and]

theorem unphrased_modified :
    (modified modifier inner).Unphrased ↔
      (∀ attributes, modifier ≠ .phrase attributes) ∧ inner.Unphrased := by
  simp only [Unphrased, modifiers_modified, List.mem_cons, not_or, forall_and, ne_comm]

theorem Unphrased.noOverhang {m : Music} (unphrased : m.Unphrased) : m.NoOverhang := by
  induction m with
  | note n | rest length => trivial
  | sequential left right leftIH rightIH =>
      rw [unphrased_sequential] at unphrased
      exact ⟨leftIH unphrased.1, rightIH unphrased.2⟩
  | parallel left right leftIH rightIH =>
      rw [unphrased_parallel] at unphrased
      exact ⟨leftIH unphrased.1, rightIH unphrased.2⟩
  | modified modifier inner ih =>
      rw [unphrased_modified] at unphrased
      cases modifier with
      | phrase attributes => exact absurd rfl (unphrased.1 attributes)
      | _ => exact ih unphrased.2

/-- A note is one event at the start of its passage.  How long the note is written decides how long
the event sounds, and nothing else. -/
theorem exists_sounded [Limits] (literal : players.Literal) (moving : 0 < c.tempo) {n : Note}
    {passage : List Event} (read : (note n).performPairwise players c = .ok passage) :
    ∃ e : Event, e.onset = c.startTime ∧ ∀ length : Amount,
      (note { n with length }).performPairwise players c =
        .ok [{ e with duration := length.val / c.tempo }] := by
  obtain ⟨player, resolved, read⟩ := bind_eq_ok.1 read
  have unchanged : ∃ style : Style, player = .builtIn style ∧ style.lengthFactor = 1 := by
    rcases literal c.player player resolved with rfl | rfl
    · exact ⟨.literal, rfl, rfl⟩
    · exact ⟨.fancy, rfl, rfl⟩
  obtain ⟨style, rfl, exact⟩ := unchanged
  obtain ⟨e, played, rfl⟩ := map_eq_ok.1 read
  obtain ⟨written, denoted, -⟩ := bind_eq_ok.1 played
  rw [Context.literalEvent, Context.scale_of_pos moving, ok_bind] at denoted
  obtain ⟨volume, scaled, -⟩ := bind_eq_ok.1 denoted
  refine ⟨⟨c.startTime, 0, n.pitch.absolute + c.transposition, volume, c.instrument⟩, rfl, ?_⟩
  intro length
  simp only [performPairwise, resolved, ok_bind, Player.playNote, Style.playNote,
    Context.literalEvent, Context.scale_of_pos moving, scaled, exact, mul_one]
  rfl

/-- No event of such a passage starts before the passage does. -/
theorem begins_of_performPairwise [Limits] (literal : players.Literal) {m : Music}
    (unphrased : m.Unphrased)
    (moving : 0 < c.tempo) {passage : List Event}
    (read : m.performPairwise players c = .ok passage) : ∀ e ∈ passage, c.startTime ≤ e.onset :=
  fun e member => (allInside_of_performPairwise literal.noOverhang unphrased.noOverhang moving read
    e member).begins

/-- The default and the fancy player. -/
def literalPlayers : Registry :=
  ⟨[("default", .builtIn .literal), ("fancy", .builtIn .fancy)]⟩

theorem literalPlayers_literal [Limits] : literalPlayers.Literal := by
  apply Registry.literal_of_entries
  intro entry member
  simp only [literalPlayers, List.mem_cons, List.not_mem_nil, or_false] at member
  rcases member with rfl | rfl
  · exact .inl rfl
  · exact .inr rfl

/-- A voice that goes on at five thirds of the tempo, and one that enters while the first note
sounds. -/
def overlappingVoices : Music :=
  parallel
    (sequential (quarter .c) (modified (.tempo ⟨5 / 3, by decide +kernel⟩) (quarter .e)))
    (sequential (rest (.nearest (1 / 8))) (modified (.player (.text "fancy")) (quarter .g)))

theorem overlappingVoices_unphrased : overlappingVoices.Unphrased := by
  simp [Unphrased, overlappingVoices, quarter]

/-- So short a length that its denominator has too many digits. -/
def hairsbreadth : Amount := .nearest (1 / 10 ^ 4300)

open Usual

theorem performed_rest :
    (Operand.music (rest (.nearest 1))).perform literalPlayers {} = .ok ⟨[], 1⟩ := by
  apply eq_ok_of_toOption
  decide +kernel

end Music

/-! ## The beginning -/

namespace Event

variable {moment : Rat} {e : Event} {events others : List Event}

/-- The event, silenced at a moment if it still sounds then. -/
def silencedAt (moment : Rat) (e : Event) : Event :=
  { e with duration := min e.duration (moment - e.onset) }

/-- What is heard of some events before a moment. -/
def heardBefore (moment : Rat) (events : List Event) : List Event :=
  (events.filter fun e => e.onset < moment).map (silencedAt moment)

theorem heardBefore_append (moment : Rat) (events others : List Event) :
    heardBefore moment (events ++ others) =
      heardBefore moment events ++ heardBefore moment others := by
  rw [heardBefore, List.filter_append, List.map_append, heardBefore, heardBefore]

theorem heardBefore_sort (moment : Rat) (events : List Event) :
    heardBefore moment (sort events) = sort (heardBefore moment events) := by
  have kept : ∀ first second,
      (silencedAt moment first).noLater (silencedAt moment second) = first.noLater second :=
    fun _ _ => rfl
  rw [heardBefore, filter_sort, heardBefore, sort_map kept]

theorem heardBefore_singleton (early : e.onset < moment) :
    heardBefore moment [e] = [e.silencedAt moment] := by
  simp [heardBefore, early]

theorem heardBefore_eq_nil (late : ∀ e ∈ events, moment ≤ e.onset) :
    heardBefore moment events = [] := by
  have none : (events.filter fun e => e.onset < moment) = [] := by
    simpa using late
  rw [heardBefore, none, List.map_nil]

end Event

namespace Music

theorem performPairwise_take_note [Limits] (literal : players.Literal) (moving : 0 < c.tempo)
    {n : Note}
    {length : Amount} (some : length ≠ 0) {passage : List Event}
    (read : (note n).performPairwise players c = .ok passage) :
    ((note n).take length).performPairwise players c =
      .ok (heardBefore (c.startTime + length.val / c.tempo) passage) := by
  obtain ⟨e, starts, sounds⟩ := exists_sounded literal moving read
  cases read.symm.trans (sounds n.length)
  have early : e.onset < c.startTime + length.val / c.tempo := by
    rw [starts]
    exact lt_add_of_pos_right _ (div_pos (Amount.val_pos some) moving)
  have stopped : (min n.length length).val / c.tempo =
      min (n.length.val / c.tempo) (c.startTime + length.val / c.tempo - e.onset) := by
    rw [starts, add_sub_cancel_left, Amount.val_min_eq, min_div_div_right moving.le]
  have heard := heardBefore_singleton (e := { e with duration := n.length.val / c.tempo }) early
  rw [take_note n some, sounds, heard, silencedAt, ← stopped]

/-- A passage that enters while a sequence goes on.  Whatever of it comes before the cut is taken;
if it enters behind the cut that is nothing, and it is of no account that its entry is cut too. -/
theorem performPairwise_take_entered [Limits] (literal : players.Literal) {m : Music}
    (unphrased : m.Unphrased) (moving : 0 < c.tempo) {entry length : Amount} {passage : List Event}
    (read : m.performPairwise players
      { c with startTime := c.startTime + entry.val / c.tempo } = .ok passage)
    (within : (m.take (length - entry)).performPairwise players
        { c with startTime := c.startTime + entry.val / c.tempo } =
      .ok (heardBefore (c.startTime + entry.val / c.tempo + (length - entry).val / c.tempo)
        passage)) :
    (m.take (length - entry)).performPairwise players
        { c with startTime := c.startTime + (min length entry).val / c.tempo } =
      .ok (heardBefore (c.startTime + length.val / c.tempo) passage) := by
  by_cases inside : entry < length
  · have order := Amount.le_of_lt inside
    have together : c.startTime + entry.val / c.tempo + (length - entry).val / c.tempo =
        c.startTime + length.val / c.tempo := by
      rw [Amount.val_sub_of_le order, sub_div, add_assoc, add_sub_cancel]
    rw [Amount.min_eq_right order, within, together]
  · have outside : length ≤ entry := Amount.not_lt.1 inside
    have begins := begins_of_performPairwise literal unphrased
      (c := { c with startTime := c.startTime + entry.val / c.tempo }) moving read
    have late : ∀ e ∈ passage, c.startTime + length.val / c.tempo ≤ e.onset := by
      intro e member
      apply le_trans _ (begins e member)
      exact add_le_add_right ((div_le_div_iff_of_pos_right moving).2 outside) _
    rw [Amount.sub_eq_zero_of_le outside, take_zero, heardBefore_eq_nil late]
    rfl

/-- The beginning of a piece sounds what is heard of the piece before the cut. -/
theorem performPairwise_take [Limits] (literal : players.Literal) {m : Music} {c : Context}
    (unphrased : m.Unphrased) (moving : 0 < c.tempo) (length : Amount) {passage : List Event}
    (read : m.performPairwise players c = .ok passage) :
    (m.take length).performPairwise players c =
      .ok (heardBefore (c.startTime + length.val / c.tempo) passage) := by
  by_cases nothing : length = 0
  · have begins := begins_of_performPairwise literal unphrased moving read
    rw [nothing, take_zero, Amount.val_zero, zero_div, add_zero, heardBefore_eq_nil begins]
    rfl
  cases m with
  | note n => exact performPairwise_take_note literal moving nothing read
  | rest own =>
      cases read
      rw [take_rest own nothing]
      rfl
  | sequential left right =>
      rw [unphrased_sequential] at unphrased
      obtain ⟨first, firstRead, read⟩ := bind_eq_ok.1 read
      obtain ⟨second, secondRead, read⟩ := bind_eq_ok.1 read
      cases read
      have before := performPairwise_take literal unphrased.1 moving length firstRead
      have within := performPairwise_take literal unphrased.2 (c := { c with
        startTime := c.startTime + left.duration.val / c.tempo }) moving
        (length - left.duration) secondRead
      have entered := performPairwise_take_entered literal unphrased.2 moving secondRead within
      rw [take_sequential left right nothing, performPairwise, before, duration_take, entered,
        ok_bind, ok_bind, heardBefore_sort, heardBefore_append]
      rfl
  | parallel left right =>
      rw [unphrased_parallel] at unphrased
      obtain ⟨first, firstRead, read⟩ := bind_eq_ok.1 read
      obtain ⟨second, secondRead, read⟩ := bind_eq_ok.1 read
      cases read
      have before := performPairwise_take literal unphrased.1 moving length firstRead
      have beside := performPairwise_take literal unphrased.2 moving length secondRead
      rw [take_parallel left right nothing, performPairwise, before, beside, ok_bind, ok_bind,
        heardBefore_sort, heardBefore_append]
      rfl
  | modified modifier inner =>
      obtain ⟨plain, unphrased⟩ := unphrased_modified.1 unphrased
      rw [performPairwise_modified players inner c plain] at read
      obtain ⟨inside, derived, read⟩ := bind_eq_ok.1 read
      have passage := performPairwise_take literal unphrased
        (Context.under_tempo_pos derived moving) (modifier.inward length) read
      rw [take_modified inner modifier nothing, performPairwise_modified players _ c plain, derived,
        ok_bind, passage, Context.under_startTime derived, ← Context.outward_div_tempo derived,
        Modifier.outward_inward]

end Music

/-- The beginning of a performance that was begun at `start`, `length` of its time long. -/
def Performance.beginning (start length : Rat) (p : Performance) : Performance :=
  ⟨heardBefore (start + length) p.events, min length p.duration⟩

namespace Music

open Performance

/-- The beginning of a piece is performed as the beginning of its performance.  What starts before
the cut sounds at its place, in the same order, and is silenced at the cut; nothing else is heard,
and nothing else is changed.  The public entry looks at the new duration alone. -/
theorem perform_take [Limits] (literal : players.Literal) {m : Music} (unphrased : m.Unphrased)
    (moving : 0 < c.tempo) (length : Amount) :
    (∀ p, m.perform players c = .ok p →
      (m.take length).perform players c =
        .ok (p.beginning c.startTime (length.val / c.tempo))) ∧
      ∀ p, (Operand.music m).perform players c = .ok p →
        (Operand.music (m.take length)).perform players c =
          granted (p.beginning c.startTime (length.val / c.tempo)) := by
  have ordered := literal.builtIn.playsInOrder
  have taken : ∀ p, m.perform players c = .ok p →
      (m.take length).perform players c =
        .ok (p.beginning c.startTime (length.val / c.tempo)) := by
    intro p performed
    obtain ⟨read, lasted⟩ := (perform_eq_ok_iff ordered moving).1 performed
    apply (perform_eq_ok_iff ordered moving).2
    constructor
    · exact performPairwise_take literal unphrased moving length read
    · rw [beginning, lasted, duration_take, Amount.val_min_eq, min_div_div_right moving.le]
  refine ⟨taken, ?_⟩
  intro p performed
  rw [Operand.perform, taken p ((operand_perform_eq_ok moving).1 performed).1, ok_bind]

open Usual

/-- A cut through two notes, behind the end of the third one. -/
theorem overlappingVoices_taken :
    literalPlayers.Literal ∧ overlappingVoices.Unphrased ∧ 0 < ({} : Context).tempo ∧
      ∃ p, overlappingVoices.perform literalPlayers {} = .ok p ∧
        (overlappingVoices.take (.nearest (5 / 16))).perform literalPlayers {} =
          .ok (p.beginning 0 (5 / 16)) := by
  have moving : 0 < ({} : Context).tempo := by decide +kernel
  obtain ⟨p, performed⟩ := exists_of_isOk (show
    (overlappingVoices.perform literalPlayers {}).isOk = true by decide +kernel)
  have taken := (perform_take literalPlayers_literal overlappingVoices_unphrased moving
    (.nearest (5 / 16))).1 p performed
  have cut : (Amount.nearest (5 / 16)).val / ({} : Context).tempo = 5 / 16 := by decide +kernel
  rw [cut] at taken
  exact ⟨literalPlayers_literal, overlappingVoices_unphrased, moving, p, performed, taken⟩

/-- A rest can be performed whose beginning cannot: that is too short to be written. -/
theorem unwritable_beginning :
    literalPlayers.Literal ∧ (rest (.nearest 1)).Unphrased ∧ 0 < ({} : Context).tempo ∧
      (Operand.music (rest (.nearest 1))).perform literalPlayers {} = .ok ⟨[], 1⟩ ∧
      (Operand.music ((rest (.nearest 1)).take hairsbreadth)).perform literalPlayers {} =
        .error .unwritableDuration := by
  have moving : 0 < ({} : Context).tempo := by decide +kernel
  have performed := exists_of_isOk (show
    (((rest (.nearest 1)).take hairsbreadth).perform literalPlayers {}).isOk = true by
      decide +kernel)
  have endless : Number.isWritable
      (((rest (.nearest 1)).take hairsbreadth).duration.val / ({} : Context).tempo) = false := by
    decide +kernel
  refine ⟨literalPlayers_literal, by simp [Unphrased], moving, performed_rest, ?_⟩
  exact (operand_perform_eq_error moving).2 (.inr ⟨rfl, performed, endless⟩)

end Music

/-! ## The rest -/

namespace Event

variable {start length : Rat} {e : Event} {events others : List Event}

/-- What is left of an event of a passage, begun at `start`, whose first `length` is left out: what
has begun by then is shorter by as much as is over, and what has not is earlier. -/
def leftAfter (start length : Rat) (e : Event) : Event :=
  { e with
    onset := max start (e.onset - length)
    duration := e.duration - max 0 (start + length - e.onset) }

/-- The same event some time later. -/
def postponed (t : Rat) (e : Event) : Event := { e with onset := e.onset + t }

/-- Where an event stands is of no account for how long it lasts. -/
theorem lasting_map {change : Event → Event} (kept : ∀ e, (change e).duration = e.duration)
    (events : List Event) : lasting (events.map change) = (lasting events).map change := by
  simp only [lasting, List.filter_map, Function.comp_def, kept]

/-- Passages that are changed alike up to events of no duration may be joined before or after. -/
theorem lasting_joined {change : Event → Event} {first first' second second' : List Event}
    (firstAlike : (lasting first').Perm (lasting (first.map change)))
    (secondAlike : (lasting second').Perm (lasting (second.map change))) :
    (lasting (sort (first' ++ second'))).Perm
      (lasting ((sort (first ++ second)).map change)) := by
  have joined : (lasting (first' ++ second')).Perm (lasting ((first ++ second).map change)) := by
    rw [lasting_append, List.map_append, lasting_append]
    exact firstAlike.append secondAlike
  have unsorted := lasting_perm (List.mergeSort_perm (first' ++ second') noLater)
  have sorted := lasting_perm ((List.mergeSort_perm (first ++ second) noLater).map change)
  exact unsorted.trans (joined.trans sorted.symm)

theorem lasting_singleton_eq_nil (ended : e.duration ≤ 0) : lasting [e] = [] := by
  simpa [lasting] using ended

theorem leftAfter_zero (begins : start ≤ e.onset) : e.leftAfter start 0 = e := by
  have ended : start - e.onset ≤ 0 := sub_nonpos.2 begins
  rw [leftAfter, sub_zero, add_zero, max_eq_right begins, max_eq_left ended, sub_zero]

/-- What is left of an event of a passage that begins `entry` after the whole: if the cut falls
before that, nothing is missing and the passage begins earlier by the whole length of the cut. -/
theorem leftAfter_of_entry {entry : Rat} (begins : start + entry ≤ e.onset) :
    (e.leftAfter (start + entry) (max (length - entry) 0)).postponed (-min length entry) =
      e.leftAfter start length := by
  rcases le_total length entry with ahead | within
  · have untouched : start + length - e.onset ≤ 0 := by linarith only [begins, ahead]
    have earlier : start ≤ e.onset - length := by linarith only [begins, ahead]
    rw [max_eq_right (sub_nonpos.2 ahead), min_eq_left ahead, leftAfter_zero begins, leftAfter,
      postponed, max_eq_left untouched, max_eq_right earlier, sub_zero, ← sub_eq_add_neg]
  · have moved : e.onset - (length - entry) + -entry = e.onset - length := by ring
    rw [max_eq_left (sub_nonneg.2 within), min_eq_right within]
    simp only [leftAfter, postponed, max_add, add_neg_cancel_right, moved, add_add_sub_cancel]

theorem lasting_of_entry {entry : Rat} (begins : ∀ e ∈ events, start + entry ≤ e.onset)
    (alike : (lasting others).Perm
      (lasting (events.map (leftAfter (start + entry) (max (length - entry) 0))))) :
    (lasting (others.map (postponed (-min length entry)))).Perm
      (lasting (events.map (leftAfter start length))) := by
  have moved : events.map (leftAfter start length) =
      (events.map (leftAfter (start + entry) (max (length - entry) 0))).map
        (postponed (-min length entry)) := by
    rw [List.map_map]
    apply List.map_congr_left
    intro e member
    exact (leftAfter_of_entry (begins e member)).symm
  have kept : ∀ e, (postponed (-min length entry) e).duration = e.duration := fun _ => rfl
  rw [moved, lasting_map kept, lasting_map kept]
  exact alike.map _

end Event

namespace Music

/-- A passage that is entered later is read as before, only later. -/
theorem performPairwise_later [Limits] (builtIn : players.BuiltIn) (m : Music) (c : Context)
    (t : Rat) :
    m.performPairwise players { c with startTime := c.startTime + t } =
      List.map (postponed t) <$> m.performPairwise players c := by
  have delayed := ((Retiming.delay t).symmetry players).performPairwise_context builtIn (m := m)
    (fun _ _ => .inr rfl) c
  have shifted : (Retiming.delay t).event = postponed t := by
    funext e
    rw [Retiming.event, Retiming.delay_moment, Retiming.delay_length, postponed]
  rw [← Retiming.delay_context, ← shifted]
  exact delayed

theorem performPairwise_drop_note [Limits] (literal : players.Literal) (moving : 0 < c.tempo)
    {n : Note}
    (length : Amount) {passage : List Event}
    (read : (note n).performPairwise players c = .ok passage) :
    ∃ remaining, ((note n).drop length).performPairwise players c = .ok remaining ∧
      (lasting remaining).Perm
        (lasting (passage.map (leftAfter c.startTime (length.val / c.tempo)))) := by
  obtain ⟨e, starts, sounds⟩ := exists_sounded literal moving read
  cases read.symm.trans (sounds n.length)
  rw [drop_note]
  refine ⟨_, sounds _, ?_⟩
  have passed : 0 ≤ length.val / c.tempo := div_nonneg length.nonneg moving.le
  have begun : Event.leftAfter c.startTime (length.val / c.tempo)
      { e with duration := n.length.val / c.tempo } =
        { e with duration := n.length.val / c.tempo - length.val / c.tempo } := by
    rw [leftAfter]
    dsimp only
    rw [starts, add_sub_cancel_left, max_eq_right passed, max_eq_left (sub_le_self _ passed)]
  rw [List.map_singleton, begun]
  rcases le_total length.val n.length.val with within | beyond
  · rw [Amount.val_sub_of_le (Amount.le_def.2 within), sub_div]
  · have ended : n.length.val / c.tempo - length.val / c.tempo ≤ 0 :=
      sub_nonpos.2 ((div_le_div_iff_of_pos_right moving).2 beyond)
    have none : lasting [{ e with duration := 0 }] = [] := lasting_singleton_eq_nil le_rfl
    rw [Amount.sub_eq_zero_of_le (Amount.le_def.2 beyond), Amount.val_zero, zero_div, none,
      lasting_singleton_eq_nil (e := { e with duration := _ }) ended]

/-- The rest of a piece sounds what is left of its events. -/
theorem performPairwise_drop [Limits] (literal : players.Literal) {m : Music} {c : Context}
    (unphrased : m.Unphrased) (moving : 0 < c.tempo) (length : Amount) {passage : List Event}
    (read : m.performPairwise players c = .ok passage) :
    ∃ remaining, (m.drop length).performPairwise players c = .ok remaining ∧
      (lasting remaining).Perm
        (lasting (passage.map (leftAfter c.startTime (length.val / c.tempo)))) := by
  induction m generalizing c length passage with
  | note n => exact performPairwise_drop_note literal moving length read
  | rest own =>
      cases read
      rw [drop_rest]
      exact ⟨[], rfl, .refl _⟩
  | sequential left right leftIH rightIH =>
      rw [unphrased_sequential] at unphrased
      obtain ⟨first, firstRead, read⟩ := bind_eq_ok.1 read
      obtain ⟨second, secondRead, read⟩ := bind_eq_ok.1 read
      cases read
      obtain ⟨first', firstRead', before⟩ := leftIH unphrased.1 moving length firstRead
      obtain ⟨second', secondRead', after⟩ := rightIH unphrased.2 (c := { c with
        startTime := c.startTime + left.duration.val / c.tempo }) moving (length - left.duration)
        secondRead
      have begins := begins_of_performPairwise literal unphrased.2
        (c := { c with startTime := c.startTime + left.duration.val / c.tempo }) moving secondRead
      have earlier : c.startTime + (left.drop length).duration.val / c.tempo =
          c.startTime + left.duration.val / c.tempo +
            -min (length.val / c.tempo) (left.duration.val / c.tempo) := by
        rw [duration_drop, Amount.val_sub_div moving.le]
        grind
      have entered := performPairwise_later literal.builtIn (right.drop (length - left.duration))
        { c with startTime := c.startTime + left.duration.val / c.tempo }
        (-min (length.val / c.tempo) (left.duration.val / c.tempo))
      rw [secondRead', map_ok] at entered
      rw [Amount.val_sub_div moving.le] at after
      rw [drop_sequential, performPairwise, firstRead', ok_bind, earlier, entered]
      exact ⟨_, rfl, lasting_joined before (lasting_of_entry begins after)⟩
  | parallel left right leftIH rightIH =>
      rw [unphrased_parallel] at unphrased
      obtain ⟨first, firstRead, read⟩ := bind_eq_ok.1 read
      obtain ⟨second, secondRead, read⟩ := bind_eq_ok.1 read
      cases read
      obtain ⟨first', firstRead', before⟩ := leftIH unphrased.1 moving length firstRead
      obtain ⟨second', secondRead', beside⟩ := rightIH unphrased.2 moving length secondRead
      rw [drop_parallel, performPairwise, firstRead', secondRead']
      exact ⟨_, rfl, lasting_joined before beside⟩
  | modified modifier inner ih =>
      obtain ⟨plain, unphrased⟩ := unphrased_modified.1 unphrased
      rw [performPairwise_modified players inner c plain] at read
      obtain ⟨inside, derived, read⟩ := bind_eq_ok.1 read
      have remaining := ih unphrased (Context.under_tempo_pos derived moving)
        (modifier.inward length) read
      rw [Context.under_startTime derived, ← Context.outward_div_tempo derived,
        Modifier.outward_inward] at remaining
      rwa [drop_modified, performPairwise_modified players _ c plain, derived, ok_bind]

end Music

/-- A performance of what is left of `p`, begun at `start`, if the first `length` of its time is
left out. -/
structure Performance.Remaining (start length : Rat) (p q : Performance) : Prop where
  events : (lasting q.events).Perm (lasting (p.events.map (leftAfter start length)))
  order : InOrder q.events
  duration : q.duration = max (p.duration - length) 0

namespace Music

open Performance

/-- The rest of a piece is performed as the rest of its performance.  Events that are over at the
cut are heard no more, those that sound then are shorter by what is over and stand at the start, and
all others come earlier by the length of the cut; of the order of the events only that of onsets is
kept.  The public entry looks at the new duration alone. -/
theorem perform_drop [Limits] (literal : players.Literal) {m : Music} (unphrased : m.Unphrased)
    (moving : 0 < c.tempo) (length : Amount) :
    (∀ p, m.perform players c = .ok p →
      ∃ q, (m.drop length).perform players c = .ok q ∧
        p.Remaining c.startTime (length.val / c.tempo) q) ∧
      ∀ p, (Operand.music m).perform players c = .ok p →
        ∃ q, (Operand.music (m.drop length)).perform players c = granted q ∧
          p.Remaining c.startTime (length.val / c.tempo) q := by
  have ordered := literal.builtIn.playsInOrder
  have dropped : ∀ p, m.perform players c = .ok p →
      ∃ q, (m.drop length).perform players c = .ok q ∧
        Remaining c.startTime (length.val / c.tempo) p q := by
    intro p performed
    obtain ⟨read, lasted⟩ := (perform_eq_ok_iff ordered moving).1 performed
    obtain ⟨remaining, remainingRead, alike⟩ :=
      performPairwise_drop literal unphrased moving length read
    refine ⟨⟨remaining, _⟩, (perform_eq_ok_iff ordered moving).2 ⟨remainingRead, rfl⟩, ?_⟩
    constructor
    · exact alike
    · exact inOrder_of_performPairwise ordered remainingRead
    · rw [lasted, duration_drop, Amount.val_sub_div moving.le]
  refine ⟨dropped, ?_⟩
  intro p performed
  have played := ((operand_perform_eq_ok moving).1 performed).1
  obtain ⟨q, remainingPerformed, remaining⟩ := dropped p played
  exact ⟨q, by rw [Operand.perform, remainingPerformed, ok_bind], remaining⟩

open Usual

/-- The first note is over at the cut, and the two others begin together behind it. -/
theorem overlappingVoices_dropped :
    literalPlayers.Literal ∧ overlappingVoices.Unphrased ∧ 0 < ({} : Context).tempo ∧
      ∃ p q, overlappingVoices.perform literalPlayers {} = .ok p ∧
        (overlappingVoices.drop (.nearest (5 / 16))).perform literalPlayers {} = .ok q ∧
        p.Remaining 0 (5 / 16) q := by
  have moving : 0 < ({} : Context).tempo := by decide +kernel
  obtain ⟨p, performed⟩ := exists_of_isOk (show
    (overlappingVoices.perform literalPlayers {}).isOk = true by decide +kernel)
  obtain ⟨q, dropped, remaining⟩ := (perform_drop literalPlayers_literal
    overlappingVoices_unphrased moving (.nearest (5 / 16))).1 p performed
  have cut : (Amount.nearest (5 / 16)).val / ({} : Context).tempo = 5 / 16 := by decide +kernel
  rw [cut] at remaining
  exact ⟨literalPlayers_literal, overlappingVoices_unphrased, moving, p, q, performed, dropped,
    remaining⟩

/-- A rest can be performed of which nothing but a hair's breadth is left out, and what is left
cannot: its length takes too many digits. -/
theorem unwritable_remainder :
    literalPlayers.Literal ∧ (rest (.nearest 1)).Unphrased ∧ 0 < ({} : Context).tempo ∧
      (Operand.music (rest (.nearest 1))).perform literalPlayers {} = .ok ⟨[], 1⟩ ∧
      (Operand.music ((rest (.nearest 1)).drop hairsbreadth)).perform literalPlayers {} =
        .error .unwritableDuration := by
  have moving : 0 < ({} : Context).tempo := by decide +kernel
  have performed := exists_of_isOk (show
    (((rest (.nearest 1)).drop hairsbreadth).perform literalPlayers {}).isOk = true by
      decide +kernel)
  have endless : Number.isWritable
      (((rest (.nearest 1)).drop hairsbreadth).duration.val / ({} : Context).tempo) = false := by
    decide +kernel
  refine ⟨literalPlayers_literal, by simp [Unphrased], moving, performed_rest, ?_⟩
  exact (operand_perform_eq_error moving).2 (.inr ⟨rfl, performed, endless⟩)

end Music

end MusicAlgebra
