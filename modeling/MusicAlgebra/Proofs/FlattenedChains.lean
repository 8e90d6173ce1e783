import MusicAlgebra.Proofs.Rearrangement
import MusicAlgebra.Proofs.Reductions

/-!
# The operands of a chain

Flattening a chain walks through a tree with a stack instead of by recursion.  Nevertheless it finds
the operands where recursion would find them: at the ends of the ways that lead down through
compositions of the one kind alone, each once, and from left to right.  The walk takes a turn for
every such composition and for every operand, and then it ends.  Lengths are computed along chains,
and come out as if every composition looked at its two sides only.
-/

namespace MusicAlgebra.Music

variable {kind : Composition}

theorem operands?_eq_some_iff {m left right : Music} :
    m.operands? kind = some (left, right) ↔ m = compose kind left right := by
  cases kind <;> cases m <;> simp [operands?, compose]

theorem operands?_eq_none_iff {m : Music} :
    m.operands? kind = none ↔ ∀ left right, m ≠ compose kind left right := by
  simp only [Option.eq_none_iff_forall_ne_some, Prod.forall, ne_eq, operands?_eq_some_iff]

/-! ## Places in a chain -/

/-- The sides of a composition. -/
inductive Side where
  | left
  | right
  deriving DecidableEq, Repr

/-- What stands at the end of a way down through compositions of one kind, and is none itself.  The
way is given by the side that it takes at every composition. -/
inductive OperandAt (kind : Composition) : List Side → Music → Music → Prop where
  | here {m : Music} (alone : ∀ left right, m ≠ compose kind left right) : OperandAt kind [] m m
  | left {way : List Side} {m left right part : Music} (composed : m = compose kind left right)
      (further : OperandAt kind way left part) : OperandAt kind (.left :: way) m part
  | right {way : List Side} {m left right part : Music} (composed : m = compose kind left right)
      (further : OperandAt kind way right part) : OperandAt kind (.right :: way) m part

/-- The first way leads further to the left: where the two part it goes left. -/
inductive LeftOf : List Side → List Side → Prop where
  | parting (way other : List Side) : LeftOf (.left :: way) (.right :: other)
  | along (side : Side) {way other : List Side} (apart : LeftOf way other) :
      LeftOf (side :: way) (side :: other)

/-- All operands of a chain with the ways to them, from left to right. -/
structure Listing (kind : Composition) (m : Music) (operands : List (List Side × Music)) :
    Prop where
  ordered : operands.Pairwise fun first second => LeftOf first.1 second.1
  complete : ∀ way part, (way, part) ∈ operands ↔ OperandAt kind way m part

theorem LeftOf.irrefl (way : List Side) : ¬ LeftOf way way := by
  induction way with
  | nil => nofun
  | cons side way ih =>
      rintro (_ | ⟨-, apart⟩)
      exact ih apart

/-- No way is listed twice. -/
theorem Listing.nodup {m : Music} {operands : List (List Side × Music)}
    (listing : Listing kind m operands) : (operands.map Prod.fst).Nodup := by
  rw [List.Nodup, List.pairwise_map]
  refine listing.ordered.imp fun {first second} apart same => ?_
  rw [same] at apart
  exact LeftOf.irrefl _ apart

theorem Listing.alone {m : Music} (alone : m.operands? kind = none) :
    Listing kind m [([], m)] where
  ordered := List.pairwise_singleton _ _
  complete way part := by
    rw [List.mem_singleton, Prod.mk.injEq]
    constructor
    · rintro ⟨rfl, rfl⟩
      exact .here (operands?_eq_none_iff.1 alone)
    · intro operand
      cases operand with
      | here => exact ⟨rfl, rfl⟩
      | left composed | right composed =>
          exact absurd composed (operands?_eq_none_iff.1 alone _ _)

/-- The operands of one side, as operands of the whole. -/
def onSide (side : Side) (operands : List (List Side × Music)) : List (List Side × Music) :=
  operands.map fun operand => (side :: operand.1, operand.2)

theorem pairwise_onSide (side : Side) {operands : List (List Side × Music)}
    (ordered : operands.Pairwise fun first second => LeftOf first.1 second.1) :
    (onSide side operands).Pairwise fun first second => LeftOf first.1 second.1 :=
  List.pairwise_map.2 (ordered.imp fun apart => .along side apart)

theorem Listing.compose {m left right : Music} {operands others : List (List Side × Music)}
    (composed : m.operands? kind = some (left, right)) (former : Listing kind left operands)
    (latter : Listing kind right others) :
    Listing kind m (onSide .left operands ++ onSide .right others) where
  ordered := by
    refine List.pairwise_append.2
      ⟨pairwise_onSide .left former.ordered, pairwise_onSide .right latter.ordered, ?_⟩
    intro first firstMem second secondMem
    obtain ⟨_, -, rfl⟩ := List.mem_map.1 firstMem
    obtain ⟨_, -, rfl⟩ := List.mem_map.1 secondMem
    exact .parting _ _
  complete way part := by
    have whole := operands?_eq_some_iff.1 composed
    rw [List.mem_append]
    constructor
    · rintro (member | member)
      · obtain ⟨⟨further, part⟩, found, same⟩ := List.mem_map.1 member
        cases same
        exact .left whole ((former.complete further part).1 found)
      · obtain ⟨⟨further, part⟩, found, same⟩ := List.mem_map.1 member
        cases same
        exact .right whole ((latter.complete further part).1 found)
    · intro operand
      cases operand with
      | here alone => exact absurd whole (alone left right)
      | left whole' further =>
          cases composed.symm.trans (operands?_eq_some_iff.2 whole')
          exact .inl (List.mem_map_of_mem ((former.complete _ part).2 further))
      | right whole' further =>
          cases composed.symm.trans (operands?_eq_some_iff.2 whole')
          exact .inr (List.mem_map_of_mem ((latter.complete _ part).2 further))

/-- Flattening lists the operands of the chain. -/
theorem exists_listing (kind : Composition) (m : Music) :
    ∃ operands, Listing kind m operands ∧ flatten kind m = operands.map Prod.snd := by
  induction m using chain_induction with
  | operand m alone => exact ⟨_, .alone alone, flatten_of_none alone⟩
  | composed m left right found leftIH rightIH =>
      obtain ⟨operands, former, listed⟩ := leftIH
      obtain ⟨others, latter, listed'⟩ := rightIH
      refine ⟨_, former.compose found latter, ?_⟩
      rw [flatten_of_some found, listed, listed', List.map_append, onSide, onSide, List.map_map,
        List.map_map]
      rfl

/-! ## The walk -/

/-- Where the walk through a tree has got to: the trees that it has still to look at, the next one
first, and the operands that it has found. -/
structure Walk where
  stack : List Music
  found : List Music

namespace Walk

/-- One turn, as long as the stack holds a tree: a composition of the kind makes way for its sides,
and anything else is an operand. -/
def turn (kind : Composition) : Walk → Option Walk
  | ⟨[], _⟩ => none
  | ⟨m :: stack, found⟩ =>
    match m.operands? kind with
    | some (left, right) => some ⟨left :: right :: stack, found⟩
    | none => some ⟨stack, found ++ [m]⟩

/-- Some number of turns, if the walk takes so many. -/
def turns (kind : Composition) : Nat → Walk → Option Walk
  | 0, walk => some walk
  | number + 1, walk => (walk.turn kind).bind (turns kind number)

/-- The operands that the walk will have found in the end. -/
def outcome (kind : Composition) (walk : Walk) : List Music :=
  walk.found ++ flattenStack kind walk.stack

/-- How many turns the walk has still to take: two for every operand that it has to find, less one
for every tree on the stack. -/
def ahead (kind : Composition) (walk : Walk) : Nat :=
  2 * (flattenStack kind walk.stack).length - walk.stack.length

theorem length_le_flattenStack (kind : Composition) (stack : List Music) :
    stack.length ≤ (flattenStack kind stack).length := by
  induction stack with
  | nil => exact Nat.zero_le _
  | cons m stack ih =>
      have filled := List.length_pos_of_ne_nil (flatten_ne_nil kind m)
      rw [flattenStack_cons, List.length_append, List.length_cons]
      omega

/-- A turn brings the walk nearer to its end and leaves its outcome as it is. -/
theorem turn_spec {walk next : Walk} (turned : walk.turn kind = some next) :
    next.outcome kind = walk.outcome kind ∧ next.ahead kind + 1 = walk.ahead kind := by
  obtain ⟨stack, found⟩ := walk
  cases stack with
  | nil => cases turned
  | cons m stack =>
      have enough := length_le_flattenStack kind (m :: stack)
      cases composed : m.operands? kind with
      | none =>
          simp only [turn, composed, Option.some.injEq] at turned
          subst turned
          have listed := flattenStack_cons_of_none stack composed
          have more := length_le_flattenStack kind stack
          constructor
          · simp only [outcome, listed, List.append_assoc, List.singleton_append]
          · simp only [ahead, listed, List.length_cons] at enough ⊢
            omega
      | some sides =>
          obtain ⟨left, right⟩ := sides
          simp only [turn, composed, Option.some.injEq] at turned
          subst turned
          have listed := flattenStack_cons_of_some stack composed
          have more := length_le_flattenStack kind (left :: right :: stack)
          constructor
          · simp only [outcome, listed]
          · simp only [ahead, listed, List.length_cons] at enough more ⊢
            omega

/-- The walk takes another turn unless the stack is empty. -/
theorem exists_turn (kind : Composition) {walk : Walk} (more : walk.stack ≠ []) :
    ∃ next, walk.turn kind = some next := by
  obtain ⟨stack, found⟩ := walk
  obtain ⟨m, stack, rfl⟩ := List.exists_cons_of_ne_nil more
  rw [turn]
  split
  · exact ⟨_, rfl⟩
  · exact ⟨_, rfl⟩

/-- The whole walk: it ends after as many turns as were ahead, with the outcome that it had from
the beginning. -/
theorem turns_ahead (walk : Walk) :
    walk.turns kind (walk.ahead kind) = some ⟨[], walk.outcome kind⟩ := by
  induction number : walk.ahead kind generalizing walk with
  | zero =>
      obtain ⟨stack, found⟩ := walk
      have more := length_le_flattenStack kind stack
      have empty : stack.length = 0 := by
        simp only [ahead] at number
        omega
      obtain rfl := List.eq_nil_of_length_eq_zero empty
      simp [turns, outcome]
  | succ number ih =>
      have more : walk.stack ≠ [] := by
        intro empty
        simp [ahead, empty] at number
      obtain ⟨next, turned⟩ := exists_turn kind more
      obtain ⟨same, nearer⟩ := turn_spec turned
      rw [turns, turned, Option.bind_some, ih next (by omega), same]

end Walk

/-- The walk through a tree ends, with the operands of the maximal chain at its root: each of them
once, from left to right, and none of them a composition of the kind.  It takes two turns for every
operand, less one.  So the length of a score, which is computed along its chains, is what its leaves
add up to in sequence and the longest of them in parallel, divided by every tempo and stretched by
every phrase around them. -/
theorem flatten_walks_chain (m : Music) :
    (∀ kind,
      (⟨[m], []⟩ : Walk).turns kind (2 * (flatten kind m).length - 1) =
          some ⟨[], flatten kind m⟩ ∧
        (∃ operands, Listing kind m operands ∧ (operands.map Prod.fst).Nodup ∧
          flatten kind m = operands.map Prod.snd) ∧
        ∀ part ∈ flatten kind m, ∀ left right, part ≠ compose kind left right) ∧
      m.duration.val = m.fold measuring := by
  refine ⟨fun kind => ⟨?_, ?_, ?_⟩, (fold_measuring m).symm⟩
  · exact Walk.turns_ahead ⟨[m], []⟩
  · obtain ⟨operands, listing, listed⟩ := exists_listing kind m
    exact ⟨operands, listing, listing.nodup, listed⟩
  · intro part member
    exact operands?_eq_none_iff.1 (operands?_of_mem_flatten member)

end MusicAlgebra.Music
