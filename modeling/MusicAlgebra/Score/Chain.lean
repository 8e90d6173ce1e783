import MusicAlgebra.Score.Music

/-!
# Chains

Composition is associative, so only the maximal chain of operands of one kind matters, not how it
is grouped.  `Music.flatten` lists those operands from left to right.  It keeps the trees that it
has still to look at on an explicit stack, and ends because their nodes become fewer.
-/

namespace MusicAlgebra

/-- The two ways of composing music. -/
inductive Composition where
  | sequential
  | parallel
  deriving DecidableEq, Repr

namespace Music

/-- The operands of a tree that is a composition of the given kind. -/
def operands? : Composition → Music → Option (Music × Music)
  | .sequential, sequential left right => some (left, right)
  | .parallel, parallel left right => some (left, right)
  | _, _ => none

theorem nodes_operands? {kind : Composition} {m left right : Music}
    (h : m.operands? kind = some (left, right)) : left.nodes + right.nodes + 1 = m.nodes := by
  cases kind <;> cases m <;> simp_all [operands?, nodes]

/-- The nodes of all trees on a stack. -/
def stackNodes : List Music → Nat
  | [] => 0
  | m :: stack => m.nodes + stackNodes stack

@[simp] theorem stackNodes_nil : stackNodes [] = 0 := rfl

@[simp] theorem stackNodes_cons (m : Music) (stack : List Music) :
    stackNodes (m :: stack) = m.nodes + stackNodes stack := rfl

/-- The chains of one kind at the roots of the trees on a stack, one after the other. -/
def flattenStack (kind : Composition) : List Music → List Music
  | [] => []
  | m :: stack =>
    match _ : m.operands? kind with
    | some (left, right) => flattenStack kind (left :: right :: stack)
    | none => m :: flattenStack kind stack
termination_by stack => stackNodes stack
decreasing_by
  · have := nodes_operands? ‹m.operands? kind = some (left, right)›
    simp only [stackNodes_cons]
    omega
  · have := m.nodes_pos
    simp only [stackNodes_cons]
    omega

/-- The operands of the maximal chain of one kind at the root, from left to right.  Music that is
no such composition is a chain of one. -/
def flatten (kind : Composition) (m : Music) : List Music := flattenStack kind [m]

@[simp] theorem flattenStack_nil (kind : Composition) : flattenStack kind [] = [] := by
  rw [flattenStack]

theorem flattenStack_cons_of_none {kind : Composition} {m : Music} (stack : List Music)
    (h : m.operands? kind = none) :
    flattenStack kind (m :: stack) = m :: flattenStack kind stack := by
  rw [flattenStack]
  split
  · rename_i found
    rw [h] at found
    cases found
  · rfl

theorem flattenStack_cons_of_some {kind : Composition} {m left right : Music} (stack : List Music)
    (h : m.operands? kind = some (left, right)) :
    flattenStack kind (m :: stack) = flattenStack kind (left :: right :: stack) := by
  rw [flattenStack]
  split
  · rename_i found
    rw [h] at found
    cases found
    rfl
  · rename_i found
    rw [h] at found
    cases found

/-- The trees of a stack are flattened independently of each other. -/
theorem flattenStack_cons (kind : Composition) (m : Music) (stack : List Music) :
    flattenStack kind (m :: stack) = flatten kind m ++ flattenStack kind stack := by
  suffices general : ∀ (size : Nat) (first second : List Music), stackNodes first ≤ size →
      flattenStack kind (first ++ second) =
        flattenStack kind first ++ flattenStack kind second from
    general _ [m] stack (Nat.le_refl _)
  intro size
  induction size with
  | zero =>
    intro first second bound
    cases first with
    | nil => simp
    | cons head tail =>
      have := head.nodes_pos
      simp only [stackNodes_cons] at bound
      omega
  | succ size ih =>
    intro first second bound
    cases first with
    | nil => simp
    | cons head tail =>
      simp only [stackNodes_cons] at bound
      cases found : head.operands? kind with
      | none =>
        have := head.nodes_pos
        rw [List.cons_append, flattenStack_cons_of_none _ found,
          flattenStack_cons_of_none _ found, ih tail second (by omega), List.cons_append]
      | some pair =>
        obtain ⟨left, right⟩ := pair
        have := nodes_operands? found
        rw [List.cons_append, flattenStack_cons_of_some _ found,
          flattenStack_cons_of_some _ found]
        exact ih (left :: right :: tail) second (by simp only [stackNodes_cons]; omega)

/-- A chain is the chain of its left operand followed by that of its right one. -/
theorem flatten_of_some {kind : Composition} {m left right : Music}
    (h : m.operands? kind = some (left, right)) :
    flatten kind m = flatten kind left ++ flatten kind right := by
  rw [flatten, flattenStack_cons_of_some [] h, flattenStack_cons, flatten, flatten]

theorem flatten_of_none {kind : Composition} {m : Music} (h : m.operands? kind = none) :
    flatten kind m = [m] := by
  rw [flatten, flattenStack_cons_of_none [] h, flattenStack_nil]

@[simp] theorem flatten_sequential (left right : Music) :
    flatten .sequential (sequential left right) =
      flatten .sequential left ++ flatten .sequential right :=
  flatten_of_some rfl

@[simp] theorem flatten_parallel (left right : Music) :
    flatten .parallel (parallel left right) = flatten .parallel left ++ flatten .parallel right :=
  flatten_of_some rfl

/-- Induction over a chain: for its operands, and for a composition from both of its sides. -/
theorem chain_induction {kind : Composition} {motive : Music → Prop}
    (operand : ∀ m, m.operands? kind = none → motive m)
    (composed : ∀ m left right, m.operands? kind = some (left, right) → motive left →
      motive right → motive m) (m : Music) : motive m := by
  induction m with
  | note n => cases kind <;> exact operand _ rfl
  | rest length => cases kind <;> exact operand _ rfl
  | sequential left right leftIH rightIH =>
    cases kind with
    | sequential => exact composed _ left right rfl leftIH rightIH
    | parallel => exact operand _ rfl
  | parallel left right leftIH rightIH =>
    cases kind with
    | sequential => exact operand _ rfl
    | parallel => exact composed _ left right rfl leftIH rightIH
  | modified modifier inner _ => cases kind <;> exact operand _ rfl

theorem flatten_ne_nil (kind : Composition) (m : Music) : flatten kind m ≠ [] := by
  induction m using chain_induction with
  | operand m alone =>
    rw [flatten_of_none alone]
    exact List.cons_ne_nil m []
  | composed m left right found leftIH _ =>
    rw [flatten_of_some found]
    exact List.append_ne_nil_of_left_ne_nil leftIH _

/-- No operand of a chain is a composition of its kind. -/
theorem operands?_of_mem_flatten {kind : Composition} {m part : Music}
    (member : part ∈ flatten kind m) : part.operands? kind = none := by
  induction m using chain_induction with
  | operand m alone =>
    rw [flatten_of_none alone, List.mem_singleton] at member
    rw [member, alone]
  | composed m left right found leftIH rightIH =>
    rw [flatten_of_some found, List.mem_append] at member
    exact member.elim leftIH rightIH

/-- The operands of a chain have no more nodes than the chain. -/
theorem nodes_le_of_mem_flatten {kind : Composition} {m part : Music}
    (member : part ∈ flatten kind m) : part.nodes ≤ m.nodes := by
  induction m using chain_induction with
  | operand m alone =>
    rw [flatten_of_none alone, List.mem_singleton] at member
    exact Nat.le_of_eq (congrArg nodes member)
  | composed m left right found leftIH rightIH =>
    have := nodes_operands? found
    rw [flatten_of_some found, List.mem_append] at member
    rcases member with member | member
    · have := leftIH member
      omega
    · have := rightIH member
      omega

/-- The operands of a composition's own chain have fewer nodes than it. -/
theorem nodes_lt_of_mem_flatten {kind : Composition} {m left right part : Music}
    (composed : m.operands? kind = some (left, right)) (member : part ∈ flatten kind m) :
    part.nodes < m.nodes := by
  have := nodes_operands? composed
  rw [flatten_of_some composed, List.mem_append] at member
  rcases member with member | member
  · have := nodes_le_of_mem_flatten member
    omega
  · have := nodes_le_of_mem_flatten member
    omega

end Music

end MusicAlgebra
