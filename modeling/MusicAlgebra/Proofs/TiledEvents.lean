import Mathlib.Data.List.Chain
import MusicAlgebra.Proofs.ContainedEvents
import MusicAlgebra.Proofs.DiatonicMotion
import MusicAlgebra.Proofs.InstantEvents

/-!
# Events in place of one

Trills and mordents put consecutive notes in the place of one: they begin with it, follow each other
without a gap, last as long as it does together, and alternate between its pitch and a neighbour in
the key.  The neighbour lies strictly above the pitch, or strictly below it for an inverted mordent,
whether the pitch belongs to the key or not.  The one thing that can go wrong is a trill of more
notes than a list can have.
-/

namespace MusicAlgebra

open Outcome

/-! ## Neighbours -/

theorem Key.lt_upperNeighbour (k : Key) (pitch : Int) : pitch < k.upperNeighbour pitch := by
  have higher := k.diatonicTranspose_strictMono pitch Int.zero_lt_one
  rwa [diatonicTranspose_zero] at higher

theorem Key.lowerNeighbour_lt (k : Key) (pitch : Int) : k.lowerNeighbour pitch < pitch := by
  have lower := k.diatonicTranspose_strictMono pitch (show (-1 : Int) < 0 by decide)
  rwa [diatonicTranspose_zero] at lower

/-- The neighbour that an ornament alternates with, if it is one that splits events. -/
def Attribute.neighbour? (k : Key) (pitch : Int) : Attribute → Option Int
  | trill _ => some (k.upperNeighbour pitch)
  | mordent => some (k.upperNeighbour pitch)
  | invertedMordent => some (k.lowerNeighbour pitch)
  | doubleMordent => some (k.upperNeighbour pitch)
  | _ => none

/-! ## Tiled events -/

namespace Event

variable {e : Event} {other : Int} {pieces : List Event} {durations : List Rat}

/-- Events that stand in the place of one: consecutive, as long as it, as loud and on its
instrument, and alternating between its pitch and another one. -/
structure TiledBy (e : Event) (other : Int) (pieces : List Event) : Prop where
  begins : ∀ first ∈ pieces.head?, first.onset = e.onset
  follows : pieces.IsChain fun former latter => latter.onset = former.finish
  lasts : (pieces.map duration).sum = e.duration
  coloured : ∀ piece ∈ pieces, piece.volume = e.volume ∧ piece.instrument = e.instrument
  alternates : ∀ i, ∀ piece ∈ pieces[i]?, piece.pitch = if i % 2 = 0 then e.pitch else other

theorem head?_alternate (e : Event) (other : Int) (durations : List Rat) :
    ∀ first ∈ (e.alternate other durations).head?, first.onset = e.onset := by
  cases durations with
  | nil => simp [alternate]
  | cons duration rest => simp [alternate]

theorem isChain_alternate (e : Event) (other : Int) (durations : List Rat) :
    (e.alternate other durations).IsChain fun former latter => latter.onset = former.finish := by
  induction durations generalizing e other with
  | nil => exact .nil
  | cons duration rest ih =>
      rw [alternate, List.isChain_cons]
      exact ⟨head?_alternate _ _ _, ih _ _⟩

theorem coloured_alternate (e : Event) (other : Int) (durations : List Rat) :
    ∀ piece ∈ e.alternate other durations,
      piece.volume = e.volume ∧ piece.instrument = e.instrument := by
  induction durations generalizing e other with
  | nil => simp [alternate]
  | cons duration rest ih =>
      rw [alternate, List.forall_mem_cons]
      exact ⟨⟨rfl, rfl⟩, ih _ _⟩

/-- The pieces after the first one alternate beginning with the other pitch. -/
theorem alternates_alternate (e : Event) (other : Int) (durations : List Rat) (i : Nat) :
    ∀ piece ∈ (e.alternate other durations)[i]?,
      piece.pitch = if i % 2 = 0 then e.pitch else other := by
  induction durations generalizing e other i with
  | nil => simp [alternate]
  | cons duration rest ih =>
      cases i with
      | zero => simp [alternate]
      | succ i =>
          intro piece member
          rw [alternate, List.getElem?_cons_succ] at member
          rw [ih _ _ i piece member]
          by_cases even : i % 2 = 0
          · rw [if_pos even, if_neg (by omega)]
          · rw [if_neg even, if_pos (by omega)]

theorem tiledBy_alternate (total : durations.sum = e.duration) :
    e.TiledBy other (e.alternate other durations) := by
  constructor
  · exact head?_alternate e other durations
  · exact isChain_alternate e other durations
  · rw [map_duration_alternate, total]
  · exact coloured_alternate e other durations
  · exact alternates_alternate e other durations

end Event

/-! ## Pieces of a length -/

/-- Durations all of which are the same, but for the last one, which may be shorter. -/
structure Measured (length : Rat) (durations : List Rat) : Prop where
  exact : ∀ duration ∈ durations.dropLast, duration = length
  last_pos : ∀ last ∈ durations.getLast?, 0 < last
  last_le : ∀ last ∈ durations.getLast?, last ≤ length

theorem measured_replicate {length : Rat} (pos : 0 < length) (count : Nat) :
    Measured length (List.replicate count length) := by
  have same : ∀ last ∈ (List.replicate count length).getLast?, last = length := by
    intro last ends
    exact List.eq_of_mem_replicate (List.mem_of_getLast? ends)
  constructor
  · intro duration member
    exact List.eq_of_mem_replicate (List.dropLast_subset _ member)
  · intro last ends
    rwa [same last ends]
  · intro last ends
    exact (same last ends).le

theorem Measured.map_mul {length factor : Rat} {durations : List Rat}
    (measured : Measured length durations) (pos : 0 < factor) :
    Measured (length * factor) (durations.map (· * factor)) := by
  constructor
  · intro duration member
    rw [← List.map_dropLast] at member
    obtain ⟨former, formerMem, rfl⟩ := List.mem_map.1 member
    rw [measured.exact former formerMem]
  · intro last ends
    rw [List.getLast?_map] at ends
    obtain ⟨former, formerEnds, rfl⟩ := Option.map_eq_some_iff.1 ends
    exact mul_pos (measured.last_pos former formerEnds) pos
  · intro last ends
    rw [List.getLast?_map] at ends
    obtain ⟨former, formerEnds, rfl⟩ := Option.map_eq_some_iff.1 ends
    exact mul_le_mul_of_nonneg_right (measured.last_le former formerEnds) pos.le

/-- Of two durations or more, the first one tells by which length they are measured. -/
theorem Measured.unique {length length' : Rat} {durations : List Rat}
    (measured : Measured length durations) (measured' : Measured length' durations)
    (some : 2 ≤ durations.length) : length = length' := by
  obtain _ | ⟨first, _ | ⟨second, rest⟩⟩ := durations
  · cases some
  · simp at some
  · have member : first ∈ (first :: second :: rest).dropLast := by simp
    rw [← measured.exact first member, ← measured'.exact first member]

theorem measured_piecesOfLength (total : Rat) {length : Rat} (pos : 0 < length) :
    Measured length (piecesOfLength total length) := by
  have fits : (total / length).floor * length ≤ total :=
    (le_div_iff₀ pos).1 (Rat.le_floor_iff.1 le_rfl)
  have short : total < ((total / length).floor + 1 : Int) * length :=
    (div_lt_iff₀ pos).1 (Rat.lt_floor_add_one _)
  rw [piecesOfLength]
  split
  · rw [List.append_nil]
    exact measured_replicate pos _
  · rename_i inexact
    constructor
    · intro duration member
      rw [List.dropLast_concat] at member
      exact List.eq_of_mem_replicate member
    · intro last ends
      rw [List.getLast?_concat] at ends
      cases ends
      exact lt_of_le_of_ne (sub_nonneg.2 fits) (Ne.symm inexact)
    · intro last ends
      rw [List.getLast?_concat] at ends
      cases ends
      rw [Int.cast_add, Int.cast_one] at short
      linarith only [short]

/-! ## Trills -/

theorem partCount_eq_ok_iff [Limits] {n : Int} (nonneg : 0 ≤ n) :
    (∃ count, partCount n = .ok count) ↔ n ≤ Limits.mostParts := by
  constructor
  · rintro ⟨count, granted⟩
    obtain ⟨rfl, storable⟩ := partCount_eq_ok granted
    omega
  · intro storable
    obtain ⟨count, rfl⟩ := Int.eq_ofNat_of_zero_le nonneg
    exact ⟨count, partCount_of_le (Int.ofNat_le.1 storable)⟩

theorem TrillSpeed.number_nonneg (speed : TrillSpeed) {total : Rat} (lasts : 0 ≤ total) :
    0 ≤ speed.number total := by
  cases speed with
  | byLength length => exact Rat.le_floor_iff.2 (div_nonneg lasts length.pos.le)
  | byCount count pos => exact Int.natCast_nonneg count

namespace Event

variable {e : Event} {key : Key} {speed : TrillSpeed} {pieces : List Event}

/-- An event can be trilled unless a list cannot have as many notes. -/
theorem exists_trill_iff [Limits] (lasts : 0 ≤ e.duration) :
    (∃ pieces, e.trill key speed = .ok pieces) ↔ speed.number e.duration ≤ Limits.mostParts := by
  rw [← partCount_eq_ok_iff (speed.number_nonneg lasts), ← trill_eq_ok_iff]
  constructor
  · rintro ⟨pieces, played⟩
    rw [trill_eq] at played ⊢
    obtain ⟨count, granted, -⟩ := map_eq_ok.1 played
    exact map_eq_ok.2 ⟨count, granted, rfl⟩
  · intro played
    exact ⟨_, played⟩

theorem trill_tiled [Limits] (lasts : 0 ≤ e.duration) (played : e.trill key speed = .ok pieces) :
    e.TiledBy (key.upperNeighbour e.pitch) pieces := by
  obtain ⟨durations, split, rfl⟩ := map_eq_ok.1 played
  apply tiledBy_alternate
  cases speed with
  | byLength length => exact sum_of_piecesOfLength? lasts length.pos split
  | byCount count pos => exact sum_of_evenPieces? pos split

theorem trill_measured [Limits] {length : Scale}
    (played : e.trill key (.byLength length) = .ok pieces) :
    Measured length.val (pieces.map duration) := by
  rw [trill_eq] at played
  obtain ⟨count, -, rfl⟩ := map_eq_ok.1 played
  rw [trilled, map_duration_alternate]
  exact measured_piecesOfLength e.duration length.pos

/-- Notes of a given length leave nothing of an instant; in any other trill there is a note. -/
theorem trill_eq_nil_iff [Limits] (lasts : 0 ≤ e.duration)
    (played : e.trill key speed = .ok pieces) :
    pieces = [] ↔ e.duration = 0 ∧ ∃ length, speed = .byLength length := by
  have whole := (trill_tiled lasts played).lasts
  rw [trill_eq] at played
  obtain ⟨count, -, rfl⟩ := map_eq_ok.1 played
  have none_iff : e.trilled key speed = [] ↔ speed.durations e.duration = [] := by
    rw [← List.map_eq_nil_iff, trilled, map_duration_alternate]
  constructor
  · intro none
    constructor
    · rw [← whole, none]
      rfl
    · cases speed with
      | byLength length => exact ⟨length, rfl⟩
      | byCount count pos =>
          -- a trill of a number of notes has them in an instant as well
          have some : count ≠ 0 := pos.ne'
          rw [none_iff] at none
          simp [TrillSpeed.durations, evenPieces, some] at none
  · rintro ⟨instant, length, rfl⟩
    rw [none_iff, instant]
    exact TrillSpeed.durations_byLength_instant length

theorem trillAll_singleton [Limits] (e : Event) (key : Key) (speed : TrillSpeed) :
    trillAll [e] key speed = e.trill key speed := by
  rw [trillAll, List.mapM_cons, List.mapM_nil]
  cases e.trill key speed with
  | error excess => rfl
  | ok pieces => exact congrArg Except.ok (List.append_nil pieces)

theorem mordent_tiled (e : Event) (other : Int) (shape : MordentShape) :
    e.TiledBy other (e.mordent other shape) :=
  tiledBy_alternate (shape.sum_pieces e.duration)

theorem mordent_ne_nil (e : Event) (other : Int) (shape : MordentShape) :
    e.mordent other shape ≠ [] := by
  cases shape <;> exact List.cons_ne_nil _ _

end Event

/-! ## Ornaments -/

section Ornaments

variable {e : Event} {shaping : Attribute} {c : Context} {other : Int}

theorem Attribute.neighbour?_side {key : Key} {pitch : Int}
    (splits : shaping.neighbour? key pitch = some other) :
    if shaping = .invertedMordent then other < pitch else pitch < other := by
  cases shaping with
  | trill _ | mordent | doubleMordent =>
      cases splits
      exact key.lt_upperNeighbour pitch
  | invertedMordent =>
      cases splits
      exact key.lowerNeighbour_lt pitch
  | _ => cases splits

/-- What the fancy style does to one event is a trill or a mordent with the neighbour. -/
theorem Style.ornament_cases [Limits] (s : Span)
    (splits : shaping.neighbour? c.key e.pitch = some other) :
    (∃ speed, shaping = .trill speed ∧ other = c.key.upperNeighbour e.pitch ∧
      fancy.interpretPhrase [e] shaping c s = (e.trill c.key speed).mapError .tooManyParts) ∨
    (∀ speed, shaping ≠ .trill speed) ∧
      ∃ shape, fancy.interpretPhrase [e] shaping c s = .ok (e.mordent other shape) := by
  cases shaping with
  | trill speed =>
      cases splits
      refine .inl ⟨speed, rfl, rfl, ?_⟩
      rw [interpretPhrase, interpretFancy, Event.trillAll_singleton]
  | mordent | invertedMordent =>
      cases splits
      exact .inr ⟨by simp, .single, congrArg Except.ok (List.append_nil _)⟩
  | doubleMordent =>
      cases splits
      exact .inr ⟨by simp, .double, congrArg Except.ok (List.append_nil _)⟩
  | _ => cases splits

/-- In the place of an event that does not last a negative time, an ornament puts events that tile
it and alternate with a neighbour on the ornament's side, unless it is a trill of more notes than a
list can have.  Only notes of a given length leave nothing, and only of an instant; all but the last
of them have that length, and the last one has some length and no more than that. -/
theorem Style.ornament_tiles [Limits] (s : Span) (lasts : 0 ≤ e.duration)
    (splits : shaping.neighbour? c.key e.pitch = some other) :
    (if shaping = .invertedMordent then other < e.pitch else e.pitch < other) ∧
    ((∃ pieces, fancy.interpretPhrase [e] shaping c s = .ok pieces) ↔
      ∀ speed, shaping = .trill speed → speed.number e.duration ≤ Limits.mostParts) ∧
    (∀ failure, fancy.interpretPhrase [e] shaping c s = .error failure →
      ∃ excess, failure = .tooManyParts excess) ∧
    ∀ pieces, fancy.interpretPhrase [e] shaping c s = .ok pieces →
      e.TiledBy other pieces ∧
      (pieces = [] ↔ e.duration = 0 ∧ ∃ length, shaping = .trill (.byLength length)) ∧
      ∀ length, shaping = .trill (.byLength length) →
        Measured length.val (pieces.map Event.duration) := by
  refine ⟨Attribute.neighbour?_side splits, ?_⟩
  rcases ornament_cases s splits with ⟨speed, rfl, rfl, played⟩ | ⟨noTrill, shape, played⟩
  · simp only [played, mapError_eq_ok, mapError_eq_error, Attribute.trill.injEq, forall_eq']
    refine ⟨Event.exists_trill_iff lasts, ?_, ?_⟩
    · rintro failure ⟨excess, -, rfl⟩
      exact ⟨excess, rfl⟩
    · intro pieces trilled
      refine ⟨Event.trill_tiled lasts trilled, Event.trill_eq_nil_iff lasts trilled, ?_⟩
      rintro length rfl
      exact Event.trill_measured trilled
  · simp only [played, noTrill, Except.ok.injEq, exists_eq', reduceCtorEq, false_implies,
      implies_true, exists_const, and_false, forall_eq', iff_false, and_true, true_and]
    exact ⟨Event.mordent_tiled e other shape, Event.mordent_ne_nil e other shape⟩

end Ornaments

/-- A note outside the key of C major. -/
def strayNote : Event := ⟨1 / 2, 1, 61, 90, "violin"⟩

/-- Notes of three eighths fill a whole one but for a quarter at its end. -/
def unevenTrill : Attribute := .trill (.byLength ⟨3 / 8, by decide +kernel⟩)

open Usual

theorem strayNote_trilled :
    let c : Context := { player := .text "fancy" }
    0 ≤ strayNote.duration ∧ unevenTrill.neighbour? c.key strayNote.pitch = some 62 ∧
      61 < (62 : Int) ∧
      ∃ pieces, Style.fancy.interpretPhrase [strayNote] unevenTrill c ⟨1 / 2, 1⟩ = .ok pieces ∧
        strayNote.TiledBy 62 pieces ∧ pieces ≠ [] ∧
        Measured (3 / 8) (pieces.map Event.duration) := by
  intro c
  have lasts : 0 ≤ strayNote.duration := by decide +kernel
  have splits : unevenTrill.neighbour? c.key strayNote.pitch = some 62 := by decide +kernel
  obtain ⟨side, possible, -, tiled⟩ := Style.ornament_tiles (c := c) ⟨1 / 2, 1⟩ lasts splits
  have storable : ∀ speed, unevenTrill = .trill speed →
      speed.number strayNote.duration ≤ Limits.mostParts := by
    rintro speed ⟨⟩
    decide +kernel
  obtain ⟨pieces, played⟩ := possible.2 storable
  obtain ⟨tiles, none_iff, measured⟩ := tiled pieces played
  refine ⟨lasts, splits, side, pieces, played, tiles, ?_, measured _ rfl⟩
  intro none
  exact absurd (none_iff.1 none).1 (by decide +kernel)

/-- A whole note of middle C. -/
def middleNote : Event := ⟨0, 1, 60, 100, "acoustic_grand_piano"⟩

/-- No list has as many notes as this trill is asked for. -/
theorem middleNote_not_trilled :
    let shaping : Attribute := .trill (.byCount 100000000000000000000 (by decide))
    let c : Context := { player := .text "fancy" }
    0 ≤ middleNote.duration ∧ shaping.neighbour? c.key middleNote.pitch = some 62 ∧
      Style.fancy.interpretPhrase [middleNote] shaping c ⟨0, 1⟩ =
        .error (.tooManyParts .uncountable) := by
  refine ⟨by decide +kernel, by decide +kernel, rfl⟩

end MusicAlgebra
