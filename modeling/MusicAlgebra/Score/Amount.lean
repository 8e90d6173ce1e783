import MusicAlgebra.Rejection

/-!
# Exact amounts

Lengths are measured in whole notes and never rounded.  An `Amount` is a non-negative rational: a
length, or the size of a phrase effect.  A `Scale` is a positive one, by which lengths are
multiplied and divided.  Both carry the proof of their sign, so that no operation on a score can
produce a negative length or divide by zero.
-/

namespace MusicAlgebra

/-- A non-negative rational. -/
structure Amount where
  val : Rat
  nonneg : 0 ≤ val
  deriving DecidableEq

/-- A positive rational. -/
structure Scale where
  val : Rat
  pos : 0 < val
  deriving DecidableEq

namespace Scale

instance : One Scale := ⟨⟨1, by decide +kernel⟩⟩

instance : Mul Scale := ⟨fun a b => ⟨a.val * b.val, Rat.mul_pos a.pos b.pos⟩⟩

@[ext] theorem ext {a b : Scale} (h : a.val = b.val) : a = b := by
  cases a; cases b; cases h; rfl

@[simp] theorem val_one : (1 : Scale).val = 1 := rfl

@[simp] theorem val_mul (a b : Scale) : (a * b).val = a.val * b.val := rfl

end Scale

namespace Amount

@[ext] theorem ext {a b : Amount} (h : a.val = b.val) : a = b := by
  cases a; cases b; cases h; rfl

instance : Zero Amount := ⟨⟨0, Rat.le_refl⟩⟩

instance : Inhabited Amount := ⟨0⟩

instance : Add Amount := ⟨fun a b => ⟨a.val + b.val, Rat.add_nonneg a.nonneg b.nonneg⟩⟩

/-- The amount nearest to a rational: itself, or zero if it is negative. -/
def nearest (q : Rat) : Amount := if nonneg : 0 ≤ q then ⟨q, nonneg⟩ else 0

/-- What is left of an amount after another one has been taken away, zero at least. -/
instance : Sub Amount := ⟨fun a b => nearest (a.val - b.val)⟩

instance : Mul Amount := ⟨fun a b => ⟨a.val * b.val, Rat.mul_nonneg a.nonneg b.nonneg⟩⟩

instance : LE Amount := ⟨fun a b => a.val ≤ b.val⟩

instance : LT Amount := ⟨fun a b => a.val < b.val⟩

instance (a b : Amount) : Decidable (a ≤ b) := inferInstanceAs (Decidable (a.val ≤ b.val))

instance (a b : Amount) : Decidable (a < b) := inferInstanceAs (Decidable (a.val < b.val))

instance : Min Amount := ⟨fun a b => if a ≤ b then a else b⟩

instance : Max Amount := ⟨fun a b => if a ≤ b then b else a⟩

/-- An amount taken a positive number of times. -/
def times (a : Amount) (s : Scale) : Amount :=
  ⟨a.val * s.val, Rat.mul_nonneg a.nonneg (Rat.le_of_lt s.pos)⟩

/-- An amount divided by a positive number. -/
def dividedBy (a : Amount) (s : Scale) : Amount :=
  ⟨a.val / s.val, by
    rw [Rat.div_def]
    exact Rat.mul_nonneg a.nonneg (Rat.le_of_lt (Rat.inv_pos.2 s.pos))⟩

@[simp] theorem val_zero : (0 : Amount).val = 0 := rfl

@[simp] theorem val_add (a b : Amount) : (a + b).val = a.val + b.val := rfl

@[simp] theorem val_mul (a b : Amount) : (a * b).val = a.val * b.val := rfl

@[simp] theorem val_times (a : Amount) (s : Scale) : (a.times s).val = a.val * s.val := rfl

@[simp] theorem val_dividedBy (a : Amount) (s : Scale) :
    (a.dividedBy s).val = a.val / s.val := rfl

theorem le_def {a b : Amount} : a ≤ b ↔ a.val ≤ b.val := Iff.rfl

theorem lt_def {a b : Amount} : a < b ↔ a.val < b.val := Iff.rfl

theorem val_nearest {q : Rat} (nonneg : 0 ≤ q) : (nearest q).val = q := by
  rw [nearest, dif_pos nonneg]

@[simp] theorem nearest_val (a : Amount) : nearest a.val = a := ext (val_nearest a.nonneg)

theorem sub_def (a b : Amount) : a - b = nearest (a.val - b.val) := rfl

theorem val_sub_of_le {a b : Amount} (h : b ≤ a) : (a - b).val = a.val - b.val := by
  have h : b.val ≤ a.val := h
  rw [sub_def, val_nearest (by grind)]

theorem sub_eq_zero_of_le {a b : Amount} (h : a ≤ b) : a - b = 0 := by
  have h : a.val ≤ b.val := h
  rw [sub_def, nearest]
  split
  · ext
    show a.val - b.val = 0
    grind
  · rfl

theorem eq_zero_iff {a : Amount} : a = 0 ↔ a.val = 0 :=
  ⟨fun h => by rw [h]; rfl, fun h => Amount.ext h⟩

/-- The sum of a list of amounts, from the left. -/
def sum (amounts : List Amount) : Amount := amounts.foldl (· + ·) 0

/-- The largest of a list of amounts, zero if there are none. -/
def largest (amounts : List Amount) : Amount := amounts.foldl max 0

/-! ## Laws -/

protected theorem add_assoc (a b c : Amount) : a + b + c = a + (b + c) :=
  ext (Rat.add_assoc _ _ _)

@[simp] protected theorem zero_add (a : Amount) : 0 + a = a := ext (Rat.zero_add _)

@[simp] protected theorem add_zero (a : Amount) : a + 0 = a := ext (Rat.add_zero _)

theorem max_def (a b : Amount) : max a b = if a ≤ b then b else a := rfl

theorem min_def (a b : Amount) : min a b = if a ≤ b then a else b := rfl

theorem val_max (a b : Amount) : (max a b).val = if a.val ≤ b.val then b.val else a.val := by
  rw [max_def]
  split
  · rename_i h
    rw [if_pos (le_def.1 h)]
  · rename_i h
    rw [if_neg fun reverse => h (le_def.2 reverse)]

theorem val_min (a b : Amount) : (min a b).val = if a.val ≤ b.val then a.val else b.val := by
  rw [min_def]
  split
  · rename_i h
    rw [if_pos (le_def.1 h)]
  · rename_i h
    rw [if_neg fun reverse => h (le_def.2 reverse)]

@[simp] theorem zero_max (a : Amount) : max 0 a = a := by
  rw [max_def, if_pos (show (0 : Amount) ≤ a from a.nonneg)]

@[simp] theorem max_zero (a : Amount) : max a 0 = a := by
  ext
  have := a.nonneg
  rw [val_max, val_zero]
  grind

protected theorem max_assoc (a b c : Amount) : max (max a b) c = max a (max b c) := by
  ext
  simp only [val_max]
  grind

theorem foldl_add (a : Amount) (amounts : List Amount) :
    amounts.foldl (· + ·) a = a + sum amounts := by
  induction amounts generalizing a with
  | nil => simp [sum]
  | cons b rest ih =>
    have whole : sum (b :: rest) = b + sum rest := by
      rw [sum, List.foldl_cons, Amount.zero_add, ih]
    rw [List.foldl_cons, ih, whole, Amount.add_assoc]

@[simp] theorem sum_nil : sum [] = 0 := rfl

@[simp] theorem sum_cons (a : Amount) (amounts : List Amount) :
    sum (a :: amounts) = a + sum amounts := by
  rw [sum, List.foldl_cons, Amount.zero_add, foldl_add]

@[simp] theorem sum_append (first second : List Amount) :
    sum (first ++ second) = sum first + sum second := by
  rw [sum, List.foldl_append, foldl_add, ← sum]

theorem foldl_max (a : Amount) (amounts : List Amount) :
    amounts.foldl max a = max a (largest amounts) := by
  induction amounts generalizing a with
  | nil => simp [largest]
  | cons b rest ih =>
    have whole : largest (b :: rest) = max b (largest rest) := by
      rw [largest, List.foldl_cons, zero_max, ih]
    rw [List.foldl_cons, ih, whole, Amount.max_assoc]

@[simp] theorem largest_nil : largest [] = 0 := rfl

@[simp] theorem largest_cons (a : Amount) (amounts : List Amount) :
    largest (a :: amounts) = max a (largest amounts) := by
  rw [largest, List.foldl_cons, zero_max, foldl_max]

@[simp] theorem largest_append (first second : List Amount) :
    largest (first ++ second) = max (largest first) (largest second) := by
  rw [largest, List.foldl_append, foldl_max, ← largest]

end Amount

namespace Datum

/-- The exact rational that a datum stands for: an integer, a finite `Float`, or a rational
literal.  `what` says in a message what the number was wanted for. -/
def toRat [Limits] (what : String) : Datum → Except Rejection Rat
  | .bool value => .error (.notNumeric what (.bool value))
  | .int value => .ok value
  | .float value =>
    match Number.Reading.ofFloat value with
    | .undefined => .error (.notRational what (.float value))
    | .infinite _ => .error .infinite
    | .finite .. => .ok ((Number.valueOf? value).getD 0)
  | .text literal =>
    match Number.read literal with
    | some q => .ok q
    | none => .error (.notRational what (.text literal))
  | given => .error (.notRational what given)

/-- The amount that a datum stands for. -/
def toAmount [Limits] (what : String) (given : Datum) : Except Rejection Amount := do
  let q ← given.toRat what
  if nonneg : 0 ≤ q then .ok ⟨q, nonneg⟩ else .error (.negative what)

/-- The length that a datum stands for. -/
def toLength [Limits] (given : Datum) : Except Rejection Amount := do
  let q ← given.toRat "Duration"
  if nonneg : 0 ≤ q then .ok ⟨q, nonneg⟩ else .error (.negativeDuration q)

end Datum

end MusicAlgebra
