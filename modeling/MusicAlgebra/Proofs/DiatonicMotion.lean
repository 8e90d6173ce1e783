import Mathlib.Data.Int.ConditionallyCompleteOrder
import Mathlib.Data.List.GetD
import Mathlib.Order.ConditionallyCompleteLattice.Basic
import MusicAlgebra.Theory.Key

/-!
# Motion by degrees

The seven pitch classes of a key, repeated in every octave, are the rungs of an endless ladder,
numbered from a tonic near the bottom of the range.  A pitch stands on the rung at or just below it.
Moving a pitch by degrees moves it along the ladder by as many rungs, whatever the sign and the size
of the motion; a pitch between two rungs steps onto the ladder, unless it is moved by whole octaves.
What is known of motion by degrees is read off the ladder: that motions add up, and that they keep
the order of pitches.
-/

namespace MusicAlgebra

/-- The degrees of a mode ascend, and the tonic of the next octave lies above the last one. -/
theorem Mode.intervals_ascend (mode : Mode) {degree : Nat} (inside : degree < 7) :
    mode.intervals.getD degree 0 <
      if degree = 6 then 12 else mode.intervals.getD (degree + 1) 0 := by
  have each : ∀ degree : Fin 7, mode.intervals.getD degree.val 0 <
      if degree.val = 6 then 12 else mode.intervals.getD (degree.val + 1) 0 := by
    cases mode <;> decide
  exact each ⟨degree, inside⟩

namespace Key

variable {k : Key} {p q i j : Int}

/-! ## The ladder -/

/-- The pitches of the scale in ascending order, over all octaves. -/
def rung (k : Key) (i : Int) : Int :=
  k.tonic.offset % 12 + k.mode.intervals.getD (i % 7).toNat 0 + 12 * (i / 7)

theorem rung_add_octaves (k : Key) (i octaves : Int) :
    k.rung (i + 7 * octaves) = k.rung i + 12 * octaves := by
  have degree : (i + 7 * octaves) % 7 = i % 7 := by omega
  have octave : (i + 7 * octaves) / 7 = i / 7 + octaves := by omega
  rw [rung, rung, degree, octave]
  omega

theorem rung_lt_succ (k : Key) (i : Int) : k.rung i < k.rung (i + 1) := by
  have inside : (i % 7).toNat < 7 := by omega
  have ascends := k.mode.intervals_ascend inside
  -- behind the last degree the ladder goes on with the tonic of the next octave
  by_cases last : (i % 7).toNat = 6
  · have first : ((i + 1) % 7).toNat = 0 := by omega
    have octave : (i + 1) / 7 = i / 7 + 1 := by omega
    have tonic : k.mode.intervals.getD 0 0 = 0 := by cases k.mode <;> rfl
    rw [if_pos last] at ascends
    rw [rung, rung, first, octave, tonic]
    omega
  · have next : ((i + 1) % 7).toNat = (i % 7).toNat + 1 := by omega
    have octave : (i + 1) / 7 = i / 7 := by omega
    rw [if_neg last] at ascends
    rw [rung, rung, next, octave]
    omega

theorem rung_strictMono (k : Key) : StrictMono k.rung := strictMono_int_of_lt_succ k.rung_lt_succ

/-- The pitch class of a rung. -/
theorem pitchClass_rung (k : Key) (i : Int) :
    k.pitchClasses.getD (i % 7).toNat 0 = k.rung i % 12 := by
  have degree : (i % 7).toNat < k.mode.intervals.length := by
    rw [Mode.intervals_length]
    omega
  rw [rung, pitchClasses, List.getD_eq_getElem _ _ (by rwa [List.length_map]),
    List.getD_eq_getElem _ _ degree, List.getElem_map]
  omega

theorem contains_iff : k.contains p = true ↔ ∃ i, k.rung i = p := by
  rw [contains, List.contains_iff_mem]
  constructor
  · intro member
    obtain ⟨degree, inside, found⟩ := List.getElem_of_mem member
    rw [pitchClasses_length] at inside
    have number : ((degree : Int) % 7).toNat = degree := by omega
    have pitchClass := k.pitchClass_rung degree
    rw [number, List.getD_eq_getElem _ _ (by rwa [pitchClasses_length]), found] at pitchClass
    refine ⟨degree + 7 * ((p - k.rung degree) / 12), ?_⟩
    rw [rung_add_octaves]
    omega
  · rintro ⟨i, rfl⟩
    have degree : (i % 7).toNat < k.pitchClasses.length := by
      rw [pitchClasses_length]
      omega
    rw [← pitchClass_rung, List.getD_eq_getElem _ _ degree]
    exact List.getElem_mem degree

/-- A pitch stands on the rung at or just below it. -/
structure Stands (k : Key) (p i : Int) : Prop where
  on : k.rung i ≤ p
  below : p < k.rung (i + 1)

theorem stands_rung (k : Key) (i : Int) : k.Stands (k.rung i) i := ⟨le_rfl, k.rung_lt_succ i⟩

theorem exists_stands (k : Key) (p : Int) : ∃ i, k.Stands p i := by
  have octave (n : Int) : k.rung (7 * n) = k.rung 0 + 12 * n := by
    rw [← rung_add_octaves, Int.zero_add]
  have bounded : ∃ bound, ∀ i, k.rung i ≤ p → i ≤ bound := by
    refine ⟨7 * ((p - k.rung 0) / 12 + 1), fun i low => ?_⟩
    apply k.rung_strictMono.le_iff_le.1
    rw [octave]
    omega
  have some : ∃ i, k.rung i ≤ p := by
    refine ⟨7 * ((p - k.rung 0) / 12), ?_⟩
    rw [octave]
    omega
  obtain ⟨i, low, greatest⟩ := Int.exists_greatest_of_bdd bounded some
  refine ⟨i, low, Int.not_le.1 fun next => ?_⟩
  have := greatest (i + 1) next
  omega

theorem Stands.le_of_le (stands : k.Stands p i) (stands' : k.Stands q j) (order : p ≤ q) :
    i ≤ j := by
  have between := (stands.on.trans order).trans_lt stands'.below
  exact Int.le_of_lt_add_one (k.rung_strictMono.lt_iff_lt.1 between)

/-! ## Motion along the ladder -/

/-- A pitch lies less than an octave above each of the last seven rungs. -/
theorem Stands.above_rung (stands : k.Stands p i) {back : Int} (low : 0 ≤ back) (high : back < 7) :
    above p (k.rung (i - back) % 12) = p - k.rung (i - back) := by
  have beneath : k.rung (i - back) ≤ k.rung i := k.rung_strictMono.monotone (by omega)
  have octave : k.rung (i + 1) ≤ k.rung (i - back + 7 * 1) := k.rung_strictMono.monotone (by omega)
  have on := stands.on
  have below := stands.below
  rw [rung_add_octaves] at octave
  rw [above]
  omega

/-- The next six rungs lie less than an octave above a pitch. -/
theorem Stands.rung_above (stands : k.Stands p i) {steps : Int} (low : 0 < steps)
    (high : steps < 7) : above (k.rung (i + steps) % 12) p = k.rung (i + steps) - p := by
  have higher : k.rung (i + 1) ≤ k.rung (i + steps) := k.rung_strictMono.monotone (by omega)
  have octave : k.rung (i + steps) < k.rung (i + 7 * 1) := k.rung_strictMono (by omega)
  have on := stands.on
  have below := stands.below
  rw [rung_add_octaves] at octave
  rw [above]
  omega

/-- How far a pitch lies above the nearest pitch of each class at or below it. -/
def distances (k : Key) (p : Int) : List Int := k.pitchClasses.map (above p)

theorem distances_length (k : Key) (p : Int) : (k.distances p).length = 7 := by
  rw [distances, List.length_map, pitchClasses_length]

/-- Every class is that of one of the last seven rungs. -/
theorem Stands.distance (stands : k.Stands p i) {degree : Nat}
    (inside : degree < (k.distances p).length) :
    (k.distances p)[degree] = p - k.rung (i - (i - degree) % 7) := by
  have seven : degree < 7 := by rwa [distances_length] at inside
  have classes : degree < k.pitchClasses.length := by rwa [pitchClasses_length]
  have number : ((i - (i - degree) % 7) % 7).toNat = degree := by omega
  have pitchClass := k.pitchClass_rung (i - (i - degree) % 7)
  rw [number, List.getD_eq_getElem _ _ classes] at pitchClass
  simp only [distances, List.getElem_map, pitchClass]
  exact stands.above_rung (by omega) (by omega)

theorem Stands.mem_distances (stands : k.Stands p i) : p - k.rung i ∈ k.distances p := by
  have inside : (i % 7).toNat < (k.distances p).length := by
    rw [distances_length]
    omega
  have back : i - (i - ((i % 7).toNat : Int)) % 7 = i := by omega
  have distance := stands.distance inside
  rw [back] at distance
  exact distance ▸ List.getElem_mem inside

/-- The rung on which a pitch stands is the nearest of the seven, and less than an octave away. -/
theorem Stands.least_distance (stands : k.Stands p i) :
    (k.distances p).foldl min 12 = p - k.rung i := by
  obtain ⟨attained, least⟩ : (k.distances p).foldl min 12 ∈ 12 :: k.distances p ∧
      ∀ distance ∈ 12 :: k.distances p, (k.distances p).foldl min 12 ≤ distance :=
    List.min?_eq_some_iff.1 List.min?_cons'
  have near := least _ (List.mem_cons_of_mem 12 stands.mem_distances)
  have octave : k.rung (i + 1) ≤ k.rung (i + 7 * 1) := k.rung_strictMono.monotone (by omega)
  have below := stands.below
  rw [rung_add_octaves] at octave
  have found : (k.distances p).foldl min 12 ∈ k.distances p :=
    (List.mem_cons.1 attained).resolve_left (by omega)
  obtain ⟨degree, inside, distance⟩ := List.getElem_of_mem found
  have lower : k.rung (i - (i - degree) % 7) ≤ k.rung i := k.rung_strictMono.monotone (by omega)
  rw [stands.distance inside] at distance
  omega

/-- The search for the nearest degree finds that of the rung, since no other one is as near. -/
theorem Stands.nearestDegree_eq (stands : k.Stands p i) : (k.nearestDegree p : Int) = i % 7 := by
  have searched : k.nearestDegree p = (k.distances p).idxOf (p - k.rung i) := by
    rw [← stands.least_distance]
    rfl
  have inside := List.idxOf_lt_length_iff.2 stands.mem_distances
  have nearest := List.getElem_idxOf inside
  rw [stands.distance inside] at nearest
  have same : k.rung (i - (i - ((k.distances p).idxOf (p - k.rung i) : Int)) % 7) = k.rung i := by
    omega
  have back := k.rung_strictMono.injective same
  rw [distances_length] at inside
  omega

theorem diatonicTranspose_octaves (k : Key) (p octaves : Int) :
    k.diatonicTranspose p (7 * octaves) = p + 12 * octaves := by
  have steps : 7 * octaves % 7 = 0 := by omega
  have whole : 7 * octaves / 7 = octaves := by omega
  simp only [diatonicTranspose, steps, whole, if_true]

@[simp] theorem diatonicTranspose_zero (k : Key) (p : Int) : k.diatonicTranspose p 0 = p := by
  simp [diatonicTranspose]

/-- A pitch that is not moved by whole octaves is moved onto the ladder. -/
theorem Stands.diatonicTranspose_eq (stands : k.Stands p i) {degrees : Int}
    (uneven : ¬ 7 ∣ degrees) : k.diatonicTranspose p degrees = k.rung (i + degrees) := by
  have steps : degrees % 7 ≠ 0 := fun even => uneven (Int.dvd_of_emod_eq_zero even)
  have target : (k.nearestDegree p + (degrees % 7).toNat) % 7 =
      ((i + degrees % 7) % 7).toNat := by
    have nearest := stands.nearestDegree_eq
    omega
  have whole : i + degrees = i + degrees % 7 + 7 * (degrees / 7) := by omega
  simp only [diatonicTranspose, if_neg steps, target, pitchClass_rung]
  rw [stands.rung_above (by omega) (by omega), whole, rung_add_octaves]
  omega

theorem diatonicTranspose_rung (k : Key) (i degrees : Int) :
    k.diatonicTranspose (k.rung i) degrees = k.rung (i + degrees) := by
  by_cases even : 7 ∣ degrees
  · obtain ⟨octaves, rfl⟩ := even
    rw [diatonicTranspose_octaves, rung_add_octaves]
  · exact (k.stands_rung i).diatonicTranspose_eq even

/-- A moved pitch stands as many rungs higher. -/
theorem Stands.moved (stands : k.Stands p i) (degrees : Int) :
    k.Stands (k.diatonicTranspose p degrees) (i + degrees) := by
  by_cases even : 7 ∣ degrees
  · obtain ⟨octaves, rfl⟩ := even
    have next : i + 7 * octaves + 1 = i + 1 + 7 * octaves := by omega
    have on := stands.on
    have below := stands.below
    rw [diatonicTranspose_octaves]
    constructor
    · rw [rung_add_octaves]
      omega
    · rw [next, rung_add_octaves]
      omega
  · rw [stands.diatonicTranspose_eq even]
    exact k.stands_rung (i + degrees)

/-- A pitch that stands lower is the lower one. -/
theorem Stands.lt_of_lt (stands : k.Stands p i) (stands' : k.Stands q j) (order : i < j) : p < q :=
  (stands.below.trans_le (k.rung_strictMono.monotone order)).trans_le stands'.on

theorem diatonicTranspose_strictMono (k : Key) (p : Int) : StrictMono (k.diatonicTranspose p) := by
  intro fewer more order
  obtain ⟨i, stands⟩ := k.exists_stands p
  exact (stands.moved fewer).lt_of_lt (stands.moved more) (by omega)

theorem diatonicTranspose_monotone (k : Key) (degrees : Int) :
    Monotone fun p => k.diatonicTranspose p degrees := by
  intro p q order
  obtain ⟨i, stands⟩ := k.exists_stands p
  obtain ⟨j, stands'⟩ := k.exists_stands q
  -- two pitches on the same rung end on the same rung, and only whole octaves keep them apart
  rcases (stands.le_of_le stands' order).lt_or_eq with lower | rfl
  · exact ((stands.moved degrees).lt_of_lt (stands'.moved degrees) (by omega)).le
  · by_cases even : 7 ∣ degrees
    · obtain ⟨octaves, rfl⟩ := even
      simp only [diatonicTranspose_octaves]
      omega
    · simp only [stands.diatonicTranspose_eq even, stands'.diatonicTranspose_eq even, le_refl]

theorem Stands.isGreatest (stands : k.Stands p i) (outside : k.contains p = false) :
    IsGreatest {r | k.contains r = true ∧ r < p} (k.rung i) := by
  constructor
  · refine ⟨contains_iff.2 ⟨i, rfl⟩, stands.on.lt_of_ne fun same => ?_⟩
    rw [contains_iff.2 ⟨i, same⟩] at outside
    cases outside
  · rintro r ⟨inside, lower⟩
    obtain ⟨j, rfl⟩ := contains_iff.1 inside
    have order := (k.stands_rung j).le_of_le stands lower.le
    exact k.rung_strictMono.monotone order

/-- Motion by degrees is an action of the integers on the pitches of a scale: they stay in the
scale, and motions one after the other add up.  Every pitch is moved by whole octaves as by
semitones, moved further by more degrees, and never past another pitch.  A pitch outside the scale
that is not moved by whole octaves moves like the nearest pitch of the scale below it. -/
theorem diatonicTranspose_acts (k : Key) :
    (∀ p, k.contains p = true → ∀ a b,
      k.contains (k.diatonicTranspose p a) = true ∧
        k.diatonicTranspose (k.diatonicTranspose p a) b = k.diatonicTranspose p (a + b)) ∧
      (∀ p a, k.diatonicTranspose p (7 * a) = p + 12 * a) ∧
      (∀ p a b, a < b → k.diatonicTranspose p a < k.diatonicTranspose p b) ∧
      (∀ p q a, p ≤ q → k.diatonicTranspose p a ≤ k.diatonicTranspose q a) ∧
      ∀ p, k.contains p = false →
        ∃ q, IsGreatest {r | k.contains r = true ∧ r < p} q ∧
          ∀ a, ¬ 7 ∣ a → k.diatonicTranspose p a = k.diatonicTranspose q a := by
  refine ⟨?_, k.diatonicTranspose_octaves, fun p a b => @k.diatonicTranspose_strictMono p a b,
    fun p q a => @k.diatonicTranspose_monotone a p q, ?_⟩
  · intro p inside a b
    obtain ⟨i, rfl⟩ := contains_iff.1 inside
    rw [diatonicTranspose_rung, diatonicTranspose_rung, diatonicTranspose_rung, Int.add_assoc]
    exact ⟨contains_iff.2 ⟨i + a, rfl⟩, rfl⟩
  · intro p outside
    obtain ⟨i, stands⟩ := k.exists_stands p
    refine ⟨k.rung i, stands.isGreatest outside, fun a uneven => ?_⟩
    rw [stands.diatonicTranspose_eq uneven, diatonicTranspose_rung]

/-- C flat major, whose tonic is written in the octave above the one in which it sounds. -/
def flatTonic : Key := ⟨⟨.c, .flat⟩, .major⟩

theorem flatTonic_moved :
    flatTonic.contains 59 = true ∧ flatTonic.contains 60 = false ∧ (-10 : Int) < -9 ∧
      (59 : Int) ≤ 60 ∧ ¬ (7 : Int) ∣ -9 ∧
      flatTonic.contains (flatTonic.diatonicTranspose 59 (-10)) = true ∧
      flatTonic.diatonicTranspose (flatTonic.diatonicTranspose 59 (-10)) 13 =
        flatTonic.diatonicTranspose 59 3 ∧
      flatTonic.diatonicTranspose 60 (7 * -2) = 60 + 12 * -2 ∧
      flatTonic.diatonicTranspose 60 (-10) < flatTonic.diatonicTranspose 60 (-9) ∧
      flatTonic.diatonicTranspose 59 (-9) ≤ flatTonic.diatonicTranspose 60 (-9) ∧
      flatTonic.diatonicTranspose 60 (-9) = flatTonic.diatonicTranspose 59 (-9) := by
  obtain ⟨acts, octaves, further, ordered, onto⟩ := diatonicTranspose_acts flatTonic
  have inside : flatTonic.contains 59 = true := by decide
  have outside : flatTonic.contains 60 = false := by decide
  have uneven : ¬ (7 : Int) ∣ -9 := by decide
  obtain ⟨q, greatest, same⟩ := onto 60 outside
  have nearest : q = 59 :=
    greatest.unique ⟨⟨inside, by decide⟩, fun r below => Int.le_of_lt_add_one below.2⟩
  exact ⟨inside, outside, by decide, by decide, uneven, (acts 59 inside (-10) 13).1,
    (acts 59 inside (-10) 13).2, octaves 60 (-2), further 60 (-10) (-9) (by decide),
    ordered 59 60 (-9) (by decide), nearest ▸ same (-9) uneven⟩

end Key

end MusicAlgebra
