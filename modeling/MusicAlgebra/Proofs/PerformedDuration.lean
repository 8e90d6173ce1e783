import Mathlib.Algebra.Order.Field.Basic
import Mathlib.Algebra.Order.Ring.Rat
import Mathlib.Tactic.FieldSimp
import Mathlib.Tactic.Linarith
import Mathlib.Tactic.Ring
import MusicAlgebra.Performance.Interpreter
import MusicAlgebra.Proofs.Outcome

/-!
# How long a performance lasts

The interpreter keeps a running time of its own, while the length of a score is defined on the tree
alone.  This module shows that the two agree: under a positive tempo a performance lasts as long as
its score says, divided by the tempo.  Players have no say in it, so the moments at which the
operands of a chain enter can be computed from the score before anything is performed.
-/

namespace MusicAlgebra

open Outcome

namespace Context

variable {c inside : Context} {players : Registry} {modifier : Modifier}

theorem scale_of_pos (moving : 0 < c.tempo) (length : Rat) :
    c.scale length = .ok (length / c.tempo) := by
  rw [scale, if_neg moving.ne']

/-- The loudness of a phrase changes nothing but the volume. -/
theorem withLoudness_eq (c : Context) (attributes : List Attribute) :
    c.withLoudness attributes = { c with volume := (c.withLoudness attributes).volume } := by
  induction attributes generalizing c with
  | nil => rfl
  | cons shaping attributes ih =>
      rw [withLoudness, List.foldl_cons, ← withLoudness, ih]
      split <;> rfl

@[simp] theorem withLoudness_startTime (attributes : List Attribute) :
    (c.withLoudness attributes).startTime = c.startTime := by
  rw [withLoudness_eq]

@[simp] theorem withLoudness_tempo (attributes : List Attribute) :
    (c.withLoudness attributes).tempo = c.tempo := by
  rw [withLoudness_eq]

@[simp] theorem withLoudness_instrument (attributes : List Attribute) :
    (c.withLoudness attributes).instrument = c.instrument := by
  rw [withLoudness_eq]

@[simp] theorem withLoudness_player (attributes : List Attribute) :
    (c.withLoudness attributes).player = c.player := by
  rw [withLoudness_eq]

/-- The contexts that modifiers derive from `c`, one rule for each of them but the phrase. -/
inductive Derives [Limits] (players : Registry) (c : Context) : Modifier → Context → Prop where
  | tempo (scale : Scale) : Derives players c (.tempo scale) { c with tempo := c.tempo * scale.val }
  | transpose (semitones : Int) :
      Derives players c (.transpose semitones)
        { c with transposition := c.transposition + semitones }
  | instrument {given : Datum} {i : Instrument} (named : Instrument.ofDatum? given = some i) :
      Derives players c (.instrument given) { c with instrument := i.name }
  | key (key : Key) : Derives players c (.key key) { c with key }
  | player {name : Datum} {player : Player} (found : players.resolve name = .ok player) :
      Derives players c (.player name) { c with player := name }
  | dynamics (delta : Int) :
      Derives players c (.dynamics delta) { c with volume := Volume.clamp (c.volume + delta) }

theorem derives_of_under [Limits] (derived : c.under players modifier = .ok inside) :
    Derives players c modifier inside := by
  cases modifier with
  | tempo scale =>
      cases derived
      exact .tempo scale
  | transpose semitones =>
      cases derived
      exact .transpose semitones
  | instrument given =>
      simp only [under] at derived
      split at derived
      · rename_i named
        cases derived
        exact .instrument named
      · cases derived
  | key key =>
      cases derived
      exact .key key
  | player name =>
      obtain ⟨player, found, rfl⟩ := map_eq_ok.1 derived
      exact .player found
  | dynamics delta =>
      cases derived
      exact .dynamics delta
  | phrase attributes => cases derived

/-- A passage under a modifier starts where the modifier stands. -/
theorem under_startTime [Limits] (derived : c.under players modifier = .ok inside) :
    inside.startTime = c.startTime := by
  cases derives_of_under derived <;> rfl

/-- No modifier but a tempo touches the tempo. -/
theorem under_tempo [Limits] (derived : c.under players modifier = .ok inside) :
    (∃ scale, modifier = .tempo scale ∧ inside.tempo = c.tempo * scale.val) ∨
      (∀ length, modifier.outward length = length) ∧ inside.tempo = c.tempo := by
  cases derives_of_under derived with
  | tempo scale =>
      left
      exact ⟨scale, rfl, rfl⟩
  | _ =>
      right
      exact ⟨fun length => rfl, rfl⟩

theorem under_tempo_pos [Limits] (derived : c.under players modifier = .ok inside)
    (moving : 0 < c.tempo) :
    0 < inside.tempo := by
  rcases under_tempo derived with ⟨scale, -, tempo⟩ | ⟨-, tempo⟩
  · rw [tempo]
    exact mul_pos moving scale.pos
  · rwa [tempo]

/-- A length carried outward through a modifier lasts as long outside as it does inside. -/
theorem outward_div_tempo [Limits] (derived : c.under players modifier = .ok inside)
    (length : Amount) :
    (modifier.outward length).val / c.tempo = length.val / inside.tempo := by
  rcases under_tempo derived with ⟨scale, rfl, tempo⟩ | ⟨kept, tempo⟩
  · rw [tempo, Modifier.outward, Amount.val_dividedBy, div_div, mul_comm scale.val]
  · rw [kept, tempo]

end Context

namespace Attribute

theorem val_foldl_timeFactor (factor : Scale) (attributes : List Attribute) :
    (attributes.foldl (fun factor shaping => factor * shaping.timeFactor) factor).val =
      factor.val * (totalTimeFactor attributes).val := by
  induction attributes generalizing factor with
  | nil => simp [totalTimeFactor]
  | cons shaping attributes ih =>
      rw [totalTimeFactor, List.foldl_cons, List.foldl_cons, ih, ih]
      simp [mul_assoc]

@[simp] theorem val_totalTimeFactor_nil : (totalTimeFactor []).val = 1 := rfl

theorem val_totalTimeFactor_cons (shaping : Attribute) (attributes : List Attribute) :
    (totalTimeFactor (shaping :: attributes)).val =
      shaping.timeFactor.val * (totalTimeFactor attributes).val := by
  rw [totalTimeFactor, List.foldl_cons, val_foldl_timeFactor]
  simp

end Attribute

namespace Performance

theorem later_eq_max (a b : Rat) : later a b = max a b :=
  (max_def_lt a b).symm

/-- An attribute stretches a phrase by its time factor, whoever plays it. -/
theorem shape_duration [Limits] {player : Player} {context : Context} {shaping : Attribute}
    {p q : Performance} (shaped : p.shape player context shaping = .ok q) :
    q.duration = p.duration * shaping.timeFactor.val := by
  cases shaping with
  | loudness | dynamic | ritardando | accelerando =>
      cases shaped
      simp [Attribute.timeFactor]
  | _ =>
      obtain ⟨events, -, result⟩ := bind_eq_ok.1 shaped
      cases result
      simp [Attribute.timeFactor]

theorem foldlM_shape_duration [Limits] {player : Player} {context : Context}
    {attributes : List Attribute}
    {p q : Performance} (shaped : attributes.foldlM (shape player context) p = .ok q) :
    q.duration = p.duration * (Attribute.totalTimeFactor attributes).val := by
  induction attributes generalizing p with
  | nil =>
      cases shaped
      simp
  | cons shaping attributes ih =>
      rw [List.foldlM_cons] at shaped
      obtain ⟨next, first, rest⟩ := bind_eq_ok.1 shaped
      rw [ih rest, shape_duration first, Attribute.val_totalTimeFactor_cons, mul_assoc]

/-- A phrase is stretched by its attributes together. -/
theorem shapeAll_duration [Limits] {player : Player} {context : Context}
    {attributes : List Attribute}
    {p q : Performance} (shaped : p.shapeAll player context attributes = .ok q) :
    q.duration = p.duration * (Attribute.totalTimeFactor attributes).val := by
  obtain ⟨unsorted, run, result⟩ := bind_eq_ok.1 shaped
  cases result
  have stretched := foldlM_shape_duration run
  exact stretched

end Performance

namespace Music

/-- The operands of a chain with the moments at which they enter: each once the lengths of those
before it have passed under the tempo. -/
def entries (tempo : Rat) : Rat → List Music → List (Music × Rat)
  | _, [] => []
  | start, part :: parts =>
      (part, start) :: entries tempo (start + part.duration.val / tempo) parts

theorem entries_append (tempo start : Rat) (first second : List Music) :
    entries tempo start (first ++ second) =
      entries tempo start first ++
        entries tempo (start + (Amount.sum (first.map duration)).val / tempo) second := by
  induction first generalizing start with
  | nil => simp [entries]
  | cons part parts ih =>
      simp only [List.cons_append, entries, ih, List.map_cons, Amount.sum_cons, Amount.val_add,
        add_div, add_assoc]

end Music

namespace Performance

open Music

/-- Parts that last as long as their scores say enter at the moments computed from the scores. -/
theorem inTurn_eq {play : Music → Rat → Except PerformFailure Performance} {tempo : Rat}
    {parts : List Music}
    (lasting : ∀ part ∈ parts, ∀ start p, play part start = .ok p →
      p.duration = part.duration.val / tempo) (start : Rat) :
    inTurn play parts start = (do
      let streams ← (entries tempo start parts).mapM fun entry => events <$> play entry.1 entry.2
      return (streams, start + (Amount.sum (parts.map Music.duration)).val / tempo)) := by
  induction parts generalizing start with
  | nil =>
      simp only [inTurn, entries, List.mapM_nil, pure_bind, List.map_nil, Amount.sum_nil,
        Amount.val_zero, zero_div, add_zero]
      rfl
  | cons part parts ih =>
      have others := ih fun other member => lasting other (List.mem_cons_of_mem part member)
      rw [inTurn, entries, List.mapM_cons]
      cases played : play part start with
      | error failure => rfl
      | ok p =>
          have lasted := lasting part List.mem_cons_self start p played
          simp only [ok_bind, map_ok, lasted, others, bind_assoc, pure_bind, List.map_cons,
            Amount.sum_cons, Amount.val_add, add_div, add_assoc]

/-- Parts that last as long as their scores say last together as long as the longest score. -/
theorem together_eq {play : Music → Except PerformFailure Performance} {tempo : Rat}
    (moving : 0 < tempo) {parts : List Music}
    (lasting : ∀ part ∈ parts, ∀ p, play part = .ok p →
      p.duration = part.duration.val / tempo) {longest : Rat} (nonneg : 0 ≤ longest) :
    together play parts longest = (do
      let streams ← parts.mapM fun part => events <$> play part
      return (streams,
        max longest ((Amount.largest (parts.map Music.duration)).val / tempo))) := by
  induction parts generalizing longest with
  | nil =>
      simp only [together, List.mapM_nil, pure_bind, List.map_nil, Amount.largest_nil,
        Amount.val_zero, zero_div, max_eq_left nonneg]
      rfl
  | cons part parts ih =>
      rw [together, List.mapM_cons]
      cases played : play part with
      | error failure => rfl
      | ok p =>
          have lasted := lasting part List.mem_cons_self p played
          have others := ih (fun other member => lasting other (List.mem_cons_of_mem part member))
            (le_max_of_le_left nonneg : 0 ≤ max longest p.duration)
          rw [lasted] at others
          have growing :
              (max part.duration (Amount.largest (parts.map Music.duration))).val / tempo =
                max (part.duration.val / tempo)
                  ((Amount.largest (parts.map Music.duration)).val / tempo) := by
            rw [Amount.val_max, ← max_def, max_div_div_right moving.le]
          simp only [ok_bind, map_ok, later_eq_max, others, lasted, bind_assoc, pure_bind,
            List.map_cons, Amount.largest_cons, growing, max_assoc]

/-- Granting a performance leaves it as it is. -/
theorem granted_eq_ok [Limits] {p q : Performance} :
    p.granted = .ok q ↔ p = q ∧ Number.isWritable p.duration = true := by
  unfold granted
  split <;> simp_all

end Performance

namespace Music

open Performance

/-- A performance lasts as long as its score says, divided by the tempo. -/
theorem duration_of_perform [Limits] {players : Registry} {m : Music} {c : Context}
    (moving : 0 < c.tempo)
    {p : Performance} (performed : m.perform players c = .ok p) :
    p.duration = m.duration.val / c.tempo := by
  induction m, c using perform.induct generalizing p with
  | case1 c n =>
      rw [perform_note, Context.scale_of_pos moving] at performed
      obtain ⟨player, -, performed⟩ := bind_eq_ok.1 performed
      obtain ⟨events, -, performed⟩ := bind_eq_ok.1 performed
      cases performed
      rw [duration_note]
  | case2 c length =>
      rw [perform_rest, Context.scale_of_pos moving] at performed
      cases performed
      rw [duration_rest]
  | case3 c left right ih =>
      rw [perform_sequential, inTurn_eq fun part member start p played =>
        ih start part member moving played] at performed
      obtain ⟨⟨streams, finish⟩, run, result⟩ := bind_eq_ok.1 performed
      obtain ⟨_, -, run⟩ := bind_eq_ok.1 run
      cases run
      cases result
      rw [duration_sequential_chain, add_sub_cancel_left]
  | case4 c left right ih =>
      rw [perform_parallel, together_eq moving (fun part member p played =>
        ih part member moving played) le_rfl] at performed
      obtain ⟨⟨streams, longest⟩, run, result⟩ := bind_eq_ok.1 performed
      obtain ⟨_, -, run⟩ := bind_eq_ok.1 run
      cases run
      cases result
      rw [duration_parallel_chain]
      exact max_eq_right (div_nonneg (Amount.nonneg _) moving.le)
  | case5 c attributes inner inside ih =>
      rw [perform_phrase] at performed
      obtain ⟨p, played, performed⟩ := bind_eq_ok.1 performed
      obtain ⟨player, -, shaped⟩ := bind_eq_ok.1 performed
      rw [shapeAll_duration shaped, ih (by rwa [Context.withLoudness_tempo]) played,
        duration_modified, Modifier.outward, Amount.val_times, Context.withLoudness_tempo]
      ring
  | case6 c modifier inner plain ih =>
      rw [perform_modified players inner c plain] at performed
      obtain ⟨inside, derived, played⟩ := bind_eq_ok.1 performed
      rw [ih inside (Context.under_tempo_pos derived moving) played, duration_modified,
        Context.outward_div_tempo derived]

section Operand

variable {players : Registry} {m : Music} {c : Context} {failure : PerformFailure}

/-- The public entry looks at the duration, which is known before anything is performed. -/
theorem operand_perform [Limits] (players : Registry) (m : Music) (moving : 0 < c.tempo) :
    (Operand.music m).perform players c = (do
      let p ← m.perform players c
      if Number.isWritable (m.duration.val / c.tempo) then .ok p
        else .error .unwritableDuration) := by
  rw [Operand.perform]
  cases performed : m.perform players c with
  | error failure => rw [error_bind, error_bind]
  | ok p => rw [ok_bind, ok_bind, granted, duration_of_perform moving performed]

theorem operand_perform_eq_ok [Limits] (moving : 0 < c.tempo) {p : Performance} :
    (Operand.music m).perform players c = .ok p ↔
      m.perform players c = .ok p ∧ Number.isWritable (m.duration.val / c.tempo) = true := by
  rw [operand_perform players m moving]
  cases m.perform players c with
  | error failure => simp
  | ok q => cases Number.isWritable (m.duration.val / c.tempo) <;> simp

theorem operand_perform_eq_error [Limits] (moving : 0 < c.tempo) :
    (Operand.music m).perform players c = .error failure ↔
      m.perform players c = .error failure ∨
        failure = .unwritableDuration ∧ (∃ p, m.perform players c = .ok p) ∧
          Number.isWritable (m.duration.val / c.tempo) = false := by
  rw [operand_perform players m moving]
  cases m.perform players c with
  | error other => simp
  | ok q => cases Number.isWritable (m.duration.val / c.tempo) <;> simp [eq_comm]

end Operand

/-- Under a positive tempo the operands of a sequential chain are performed at the moments at which
they enter, which the score alone determines. -/
theorem perform_sequential_entries [Limits] (players : Registry) (left right : Music) {c : Context}
    (moving : 0 < c.tempo) :
    (sequential left right).perform players c = (do
      let streams ← (entries c.tempo c.startTime (flatten .sequential (sequential left right))).mapM
        fun entry => events <$> entry.1.perform players { c with startTime := entry.2 }
      return {
        events := Event.merge streams
        duration := (sequential left right).duration.val / c.tempo }) := by
  have lasting : ∀ part ∈ flatten .sequential (sequential left right), ∀ start p,
      part.perform players { c with startTime := start } = .ok p →
        p.duration = part.duration.val / c.tempo := by
    intro part member start p played
    apply duration_of_perform _ played
    exact moving
  rw [perform_sequential, inTurn_eq lasting, duration_sequential_chain]
  simp only [bind_assoc, pure_bind, add_sub_cancel_left]

/-- Under a positive tempo the operands of a parallel chain are performed from one moment, for as
long as the longest of them. -/
theorem perform_parallel_parts [Limits] (players : Registry) (left right : Music) {c : Context}
    (moving : 0 < c.tempo) :
    (parallel left right).perform players c = (do
      let streams ← (flatten .parallel (parallel left right)).mapM
        fun part => events <$> part.perform players c
      return {
        events := Event.merge streams
        duration := (parallel left right).duration.val / c.tempo }) := by
  have lasting : ∀ part ∈ flatten .parallel (parallel left right), ∀ p,
      part.perform players c = .ok p → p.duration = part.duration.val / c.tempo := by
    intro part member p played
    exact duration_of_perform moving played
  rw [perform_parallel, together_eq moving lasting le_rfl, duration_parallel_chain]
  simp only [bind_assoc, pure_bind, max_eq_right (div_nonneg (Amount.nonneg _) moving.le)]

/-- Performing keeps the time of the score.  A performance lasts as long as its music, divided by
the tempo, and whatever follows the music starts exactly then: neither depends on what the players
do to the events. -/
theorem perform_keeps_time [Limits] (m : Music) {c : Context} (moving : 0 < c.tempo)
    (players : Registry) :
    (∀ p, m.perform players c = .ok p → p.duration = m.duration.val / c.tempo) ∧
      (∀ p, (Operand.music m).perform players c = .ok p →
        p.duration = m.duration.val / c.tempo) ∧
      ∀ next, (sequential m next).perform players c = (do
        let play := fun entry : Music × Rat =>
          events <$> entry.1.perform players { c with startTime := entry.2 }
        let before ← (entries c.tempo c.startTime (flatten .sequential m)).mapM play
        let after ← (entries c.tempo (c.startTime + m.duration.val / c.tempo)
          (flatten .sequential next)).mapM play
        return {
          events := Event.merge (before ++ after)
          duration := (m.duration.val + next.duration.val) / c.tempo }) := by
  constructor
  · intro p performed
    exact duration_of_perform moving performed
  constructor
  · intro p performed
    obtain ⟨q, played, granted⟩ := bind_eq_ok.1 performed
    have same : q = p := by
      rw [granted_eq_ok] at granted
      exact granted.1
    exact same ▸ duration_of_perform moving played
  · intro next
    rw [perform_sequential_entries players m next moving, flatten_sequential, entries_append,
      sum_duration_flatten, List.mapM_append, duration_sequential, Amount.val_add]
    simp only [bind_assoc, pure_bind]

/-- A player that sounds two events for a note, the later one first, neither of them where the note
stands, and sounds every event of a phrase twice. -/
def unruly : Player :=
  .custom "unruly"
    (fun n c => .ok [
      ⟨c.startTime + 7, n.length.val, n.pitch.absolute, 300, "kazoo"⟩, ⟨-1, -5, 0, 0, ""⟩])
    (fun events _ _ _ => .ok (events ++ events))

theorem natural_inRange (letter : Letter) :
    0 ≤ (Spelling.mk letter .natural).absolute 4 ∧
      (Spelling.mk letter .natural).absolute 4 ≤ 127 := by
  cases letter <;> decide

/-- A note of the middle octave, a quarter long. -/
def quarter (letter : Letter) : Music :=
  note ⟨⟨⟨letter, .natural⟩, 4, natural_inRange letter⟩, .nearest (1 / 4), .ofNote⟩

/-- A phrase that slows down and then speeds up, played by two voices of different lengths at three
halves of the tempo, before a rest. -/
def hurriedPhrase : Music :=
  sequential
    (modified (.tempo ⟨3 / 2, by decide +kernel⟩)
      (modified
        (.phrase [.ritardando (.nearest (1 / 2)), .pedal,
          .accelerando (.nearest (1 / 3)) (by decide +kernel)])
        (parallel (quarter .c) (rest (.nearest (3 / 8))))))
    (rest (.nearest (1 / 4)))

open Usual

theorem hurriedPhrase_keeps_time :
    (0 : Rat) < 2 ∧
      ∃ p, hurriedPhrase.perform ⟨[("unruly", unruly)]⟩ { tempo := 2, player := .text "unruly" } =
          .ok p ∧ p.duration = 1 / 4 := by
  have moving : (0 : Rat) < 2 := by decide +kernel
  obtain ⟨p, performed⟩ := exists_of_isOk (show
    (hurriedPhrase.perform ⟨[("unruly", unruly)]⟩
      { tempo := 2, player := .text "unruly" }).isOk = true by decide +kernel)
  have written : hurriedPhrase.duration.val / 2 = 1 / 4 := by decide +kernel
  exact ⟨moving, p, performed,
    ((perform_keeps_time hurriedPhrase moving _).1 p performed).trans written⟩

end Music

end MusicAlgebra
