import Mathlib.Data.List.Nodup
import MusicAlgebra.Cancellation

/-!
# No wake-up is lost

Tasks wait on a token and cancel it, any number of them, and their steps interleave in any order.  A
cancel can come between any two steps of a waiter; that it leaves none asleep rests on two facts
that every step keeps.  While the flag is down, whoever sleeps or is about to is on the register,
where a cancel finds it.  While the flag is up, whoever sleeps has been woken up or will be.
-/

namespace MusicAlgebra.Cancellation

namespace Phase

/-- Between its registration and its striking off a waiter may be on the register. -/
def mayBeListed : Phase → Bool
  | rechecking | suspended _ | leaving _ => true
  | _ => false

/-- A waiter that sleeps, or can still fall asleep, counts on being on the register. -/
def needsListing : Phase → Bool
  | rechecking | suspended _ => true
  | _ => false

/-- A wait is in progress from its first test to its answer. -/
def isInProgress : Phase → Bool
  | arriving | answered _ | aborted => false
  | _ => true

/-- Whether the task of the waiter has been given up. -/
def isGivenUp : Phase → Bool
  | leaving aborting => aborting
  | aborted => true
  | _ => false

/-- Whether a waiter, once the flag is up, has answered yes or can still do so. -/
def mayAnswerYes : Phase → Bool
  | leaving aborting => !aborting
  | aborted => false
  | answered cancelled => cancelled
  | _ => true

/-- The most steps that a waiter still takes once the flag is up and it does not sleep. -/
def stepsLeft : Phase → Nat
  | registering => 4
  | rechecking | suspended _ => 3
  | leaving _ => 2
  | arriving | answering => 1
  | answered _ | aborted => 0

theorem stepsLeft_le (phase : Phase) : phase.stepsLeft ≤ 4 := by
  cases phase <;> simp [stepsLeft]

theorem isInProgress_of_mayBeListed {phase : Phase} (listed : phase.mayBeListed = true) :
    phase.isInProgress = true := by
  cases phase <;> simp_all [mayBeListed, isInProgress]

end Phase

/-- The waiter that an action is about. -/
def Action.waiter? : Action → Option Nat
  | advance waiter | wake waiter | expire waiter | abort waiter => some waiter
  | arrive | cancel => none

namespace Token

variable {t : Token} {waiter other : Nat} {phase old new : Phase} {action : Action}
variable {history earlier later : List Action}

theorem afterAll_cons (t : Token) (action : Action) (later : List Action) :
    t.afterAll (action :: later) = (t.after action).afterAll later := rfl

/-! ## The phases of the waiters -/

theorem phase?_enter_self (present : t.phase? waiter = some old) :
    (t.enter waiter new).phase? waiter = some new := by
  obtain ⟨inRange, -⟩ := List.getElem?_eq_some_iff.1 present
  exact List.getElem?_set_self inRange

theorem phase?_enter_of_ne (different : other ≠ waiter) :
    (t.enter waiter new).phase? other = t.phase? other :=
  List.getElem?_set_ne (Ne.symm different)

/-- After one waiter has entered a phase, it is there, and the others are where they were. -/
theorem phase?_of_enter (present : t.phase? waiter = some old)
    (after : (t.enter waiter new).phase? other = some phase) :
    other = waiter ∧ phase = new ∨ other ≠ waiter ∧ t.phase? other = some phase := by
  by_cases same : other = waiter
  · subst same
    exact .inl ⟨rfl, Option.some.inj (after.symm.trans (phase?_enter_self present))⟩
  · exact .inr ⟨same, (phase?_enter_of_ne same).symm.trans after⟩

theorem phase?_cancel (t : Token) (waiter : Nat) :
    t.cancel.phase? waiter = t.phase? waiter := by
  unfold cancel
  split <;> rfl

theorem phase?_arrive (present : t.phase? waiter = some phase) :
    (t.after .arrive).phase? waiter = some phase := by
  obtain ⟨inRange, -⟩ := List.getElem?_eq_some_iff.1 present
  exact (List.getElem?_append_left inRange).trans present

theorem phase?_of_arrive (after : (t.after .arrive).phase? waiter = some phase) :
    t.phase? waiter = some phase ∨ phase = .arriving := by
  rcases Nat.lt_or_ge waiter t.waiters.length with inRange | beyond
  · exact .inl ((List.getElem?_append_left inRange).symm.trans after)
  · have last := (List.getElem?_append_right beyond).symm.trans after
    exact .inr (List.mem_singleton.1 (List.mem_of_getElem? last))

/-- An action changes the phase of no waiter but the one that it is about. -/
theorem phase?_after_of_ne (different : action.waiter? ≠ some waiter)
    (present : t.phase? waiter = some phase) : (t.after action).phase? waiter = some phase := by
  cases action with
  | arrive => exact phase?_arrive present
  | cancel => exact (phase?_cancel t waiter).trans present
  | advance actor | wake actor | expire actor | abort actor =>
      have apart : waiter ≠ actor := fun same => different (congrArg some same.symm)
      simp only [after, advance, wake, expire, abort]
      repeat' split
      all_goals first | exact present | exact (phase?_enter_of_ne apart).trans present

/-- The changes of phase that an action can bring about for a waiter. -/
inductive Moves (t : Token) (waiter : Nat) : Action → Phase → Phase → Prop where
  | tests : Moves t waiter (.advance waiter) .arriving
      (if t.cancelled then .answered true else .registering)
  | registers : Moves t waiter (.advance waiter) .registering .rechecking
  | rechecks : Moves t waiter (.advance waiter) .rechecking
      (if t.cancelled then .leaving false else .suspended false)
  | resumes : Moves t waiter (.advance waiter) (.suspended true) (.leaving false)
  | leaves {aborting : Bool} : Moves t waiter (.advance waiter) (.leaving aborting)
      (if aborting then .aborted else .answering)
  | answers : Moves t waiter (.advance waiter) .answering (.answered t.cancelled)
  | wakes {woken : Bool} : waiter ∈ t.wakeUps →
      Moves t waiter (.wake waiter) (.suspended woken) (.suspended true)
  | expires {woken : Bool} : Moves t waiter (.expire waiter) (.suspended woken) (.leaving false)
  | turnsBack : Moves t waiter (.abort waiter) .arriving .aborted
  | givesUp {woken : Bool} : Moves t waiter (.abort waiter) (.suspended woken) (.leaving true)

theorem Moves.phase? (moves : Moves t waiter action old new)
    (present : t.phase? waiter = some old) : (t.after action).phase? waiter = some new := by
  have entered : (t.enter waiter new).phase? waiter = some new := phase?_enter_self present
  cases moves with
  | wakes pending =>
      have asleep : { t with wakeUps := t.wakeUps.erase waiter }.phase? waiter = _ := present
      simp only [after, wake, if_pos pending, asleep]
      exact entered
  | _ =>
      simp only [after, advance, expire, abort, present]
      exact entered

/-- A waiter keeps its phase or makes one of the moves. -/
theorem phase?_after (present : t.phase? waiter = some old) (action : Action) :
    (t.after action).phase? waiter = some old ∨ ∃ new, Moves t waiter action old new := by
  by_cases concerned : action.waiter? = some waiter
  · cases action with
    | arrive | cancel => cases concerned
    | advance actor =>
        cases concerned
        rcases old with _ | _ | _ | (_ | _) | _ | _ | _ | _
        · exact .inr ⟨_, .tests⟩
        · exact .inr ⟨_, .registers⟩
        · exact .inr ⟨_, .rechecks⟩
        · exact .inl (by simp only [after, advance, present])
        · exact .inr ⟨_, .resumes⟩
        · exact .inr ⟨_, .leaves⟩
        · exact .inr ⟨_, .answers⟩
        · exact .inl (by simp only [after, advance, present])
        · exact .inl (by simp only [after, advance, present])
    | wake actor =>
        cases concerned
        by_cases pending : waiter ∈ t.wakeUps
        · have unchanged : { t with wakeUps := t.wakeUps.erase waiter }.phase? waiter = some old :=
            present
          cases old with
          | suspended woken => exact .inr ⟨_, .wakes pending⟩
          | _ => exact .inl (by simp only [after, wake, if_pos pending, unchanged])
        · exact .inl (by simp only [after, wake, if_neg pending, present])
    | expire actor =>
        cases concerned
        cases old with
        | suspended woken => exact .inr ⟨_, .expires⟩
        | _ => exact .inl (by simp only [after, expire, present])
    | abort actor =>
        cases concerned
        cases old with
        | arriving => exact .inr ⟨_, .turnsBack⟩
        | suspended woken => exact .inr ⟨_, .givesUp⟩
        | _ => exact .inl (by simp only [after, abort, present])
  · exact .inl (phase?_after_of_ne concerned present)

/-! ## The flag -/

theorem cancelled_after (t : Token) (action : Action) :
    (t.after action).cancelled = true ↔ t.cancelled = true ∨ action = .cancel := by
  cases action with
  | cancel =>
      simp only [after, cancel, or_true, iff_true]
      split <;> simp_all
  | _ =>
      simp only [after, advance, wake, expire, abort, reduceCtorEq, or_false]
      repeat' split
      all_goals rfl

theorem cancelled_advance (t : Token) (waiter : Nat) :
    (t.after (.advance waiter)).cancelled = t.cancelled := by
  simp only [after, advance]
  repeat' split
  all_goals rfl

/-- The flag is up if it was or a cancel has come. -/
theorem cancelled_afterAll (t : Token) (history : List Action) :
    (t.afterAll history).cancelled = true ↔ t.cancelled = true ∨ .cancel ∈ history := by
  induction history generalizing t with
  | nil => simp [afterAll]
  | cons action history ih =>
      rw [afterAll_cons, ih, cancelled_after, List.mem_cons, or_assoc, eq_comm (a := action)]

/-! ## What every step keeps -/

/-- Nobody is on the register twice or without being there to leave it.  Whoever sleeps can be found
on it by a cancel; once the cancel has come, a wake-up has been delivered or is on its way. -/
structure Sound (t : Token) : Prop where
  nodup : t.register.Nodup
  listed : ∀ waiter ∈ t.register,
    ∃ phase, t.phase? waiter = some phase ∧ phase.mayBeListed = true
  found : t.cancelled = false → ∀ waiter phase, t.phase? waiter = some phase →
    phase.needsListing = true → waiter ∈ t.register
  roused : t.cancelled = true → ∀ waiter, t.phase? waiter = some (.suspended false) →
    waiter ∈ t.wakeUps

namespace Sound

theorem empty : Sound {} where
  nodup := List.nodup_nil
  listed waiter member := by cases member
  found _ waiter phase present := by cases present
  roused cancelled := by cases cancelled

theorem not_mem_register (sound : t.Sound) (present : t.phase? waiter = some phase)
    (unlisted : phase.mayBeListed = false) : waiter ∉ t.register := by
  intro member
  obtain ⟨phase', present', listed⟩ := sound.listed waiter member
  cases present.symm.trans present'
  cases unlisted.symm.trans listed

/-- A change of phase that leaves the register alone. -/
theorem enter (sound : t.Sound) (present : t.phase? waiter = some old)
    (listed : old.mayBeListed = true → new.mayBeListed = true)
    (found : t.cancelled = false → new.needsListing = true → old.needsListing = true)
    (roused : t.cancelled = true → new ≠ .suspended false) : (t.enter waiter new).Sound where
  nodup := sound.nodup
  listed other member := by
    obtain ⟨phase, before, mayBeListed⟩ := sound.listed other member
    by_cases same : other = waiter
    · subst same
      cases present.symm.trans before
      exact ⟨new, phase?_enter_self present, listed mayBeListed⟩
    · exact ⟨phase, (phase?_enter_of_ne same).trans before, mayBeListed⟩
  found down other phase after needs := by
    rcases phase?_of_enter present after with ⟨rfl, rfl⟩ | ⟨-, before⟩
    · exact sound.found down other old present (found down needs)
    · exact sound.found down other phase before needs
  roused up other after := by
    rcases phase?_of_enter present after with ⟨-, asleep⟩ | ⟨-, before⟩
    · exact absurd asleep.symm (roused up)
    · exact sound.roused up other before

theorem registers (sound : t.Sound) (present : t.phase? waiter = some .registering) :
    ({ t with register := t.register ++ [waiter] }.enter waiter .rechecking).Sound where
  nodup := List.nodup_append.2 ⟨sound.nodup, List.nodup_singleton waiter, by
    intro first member second single
    cases List.mem_singleton.1 single
    rintro rfl
    exact sound.not_mem_register present rfl member⟩
  listed other member := by
    rcases List.mem_append.1 member with member | single
    · have apart : other ≠ waiter := fun same =>
        sound.not_mem_register present rfl (same ▸ member)
      obtain ⟨phase, before, mayBeListed⟩ := sound.listed other member
      exact ⟨phase, (phase?_enter_of_ne apart).trans before, mayBeListed⟩
    · cases List.mem_singleton.1 single
      exact ⟨.rechecking, phase?_enter_self present, rfl⟩
  found down other phase after needs := by
    rcases phase?_of_enter present after with ⟨same, -⟩ | ⟨-, before⟩
    · exact List.mem_append_right _ (List.mem_singleton.2 same)
    · exact List.mem_append_left _ (sound.found down other phase before needs)
  roused up other after := by
    rcases phase?_of_enter present after with ⟨-, asleep⟩ | ⟨-, before⟩
    · cases asleep
    · exact sound.roused up other before

theorem leaves (sound : t.Sound) (present : t.phase? waiter = some old)
    (gone : new.mayBeListed = false) (awake : new.needsListing = false) :
    ({ t with register := t.register.erase waiter }.enter waiter new).Sound where
  nodup := sound.nodup.erase waiter
  listed other member := by
    obtain ⟨apart, member⟩ := sound.nodup.mem_erase_iff.1 member
    obtain ⟨phase, before, mayBeListed⟩ := sound.listed other member
    exact ⟨phase, (phase?_enter_of_ne apart).trans before, mayBeListed⟩
  found down other phase after needs := by
    rcases phase?_of_enter present after with ⟨-, rfl⟩ | ⟨apart, before⟩
    · cases awake.symm.trans needs
    · exact (List.mem_erase_of_ne apart).2 (sound.found down other phase before needs)
  roused up other after := by
    rcases phase?_of_enter present after with ⟨-, rfl⟩ | ⟨-, before⟩
    · cases awake
    · exact sound.roused up other before

/-- A wake-up may be struck off once its waiter does not sleep any more. -/
theorem delivered (sound : t.Sound) (awake : t.phase? waiter ≠ some (.suspended false)) :
    { t with wakeUps := t.wakeUps.erase waiter }.Sound where
  nodup := sound.nodup
  listed := sound.listed
  found := sound.found
  roused up other asleep := by
    have apart : other ≠ waiter := by
      rintro rfl
      exact awake asleep
    exact (List.mem_erase_of_ne apart).2 (sound.roused up other asleep)

theorem arrive (sound : t.Sound) : (t.after .arrive).Sound where
  nodup := sound.nodup
  listed waiter member := by
    obtain ⟨phase, before, mayBeListed⟩ := sound.listed waiter member
    exact ⟨phase, phase?_arrive before, mayBeListed⟩
  found down waiter phase after needs := by
    rcases phase?_of_arrive after with before | rfl
    · exact sound.found down waiter phase before needs
    · cases needs
  roused up waiter after := by
    rcases phase?_of_arrive after with before | arriving
    · exact sound.roused up waiter before
    · cases arriving

theorem advance (sound : t.Sound) (waiter : Nat) : (t.advance waiter).Sound := by
  unfold Token.advance
  split
  case h_1 present =>
    split
    · exact sound.enter present nofun nofun nofun
    · exact sound.enter present nofun nofun nofun
  case h_2 present => exact sound.registers present
  case h_3 present =>
    split
    · exact sound.enter present (fun _ => rfl) nofun nofun
    · rename_i down
      exact sound.enter present (fun _ => rfl) (fun _ _ => rfl) fun up => absurd up down
  case h_4 present => exact sound.enter present (fun _ => rfl) nofun nofun
  case h_5 aborting present =>
      exact sound.leaves present (by cases aborting <;> rfl) (by cases aborting <;> rfl)
  case h_6 present => exact sound.enter present nofun nofun nofun
  all_goals exact sound

theorem cancel (sound : t.Sound) : t.cancel.Sound := by
  unfold Token.cancel
  split
  · exact sound
  · rename_i down
    exact {
      nodup := List.nodup_nil
      listed := fun waiter member => by cases member
      found := fun down => by cases down
      roused := fun _ waiter asleep => List.mem_append_right _
        (sound.found (eq_false_of_ne_true down) waiter _ asleep rfl) }

theorem wake (sound : t.Sound) (waiter : Nat) : (t.wake waiter).Sound := by
  unfold Token.wake
  split
  · dsimp only
    split
    · rename_i woken present
      have asleep : t.phase? waiter = some (.suspended woken) := present
      -- The waiter notices first; only then is its wake-up no longer needed.
      have noticed : (t.enter waiter (.suspended true)).phase? waiter = some (.suspended true) :=
        phase?_enter_self asleep
      have roused : (t.enter waiter (.suspended true)).Sound :=
        sound.enter asleep (fun _ => rfl) (fun _ _ => rfl) nofun
      have awake : (t.enter waiter (.suspended true)).phase? waiter ≠ some (.suspended false) := by
        intro sleeps
        cases noticed.symm.trans sleeps
      exact roused.delivered awake
    · rename_i apart
      exact sound.delivered (apart false)
  · exact sound

theorem expire (sound : t.Sound) (waiter : Nat) : (t.expire waiter).Sound := by
  unfold Token.expire
  split
  · rename_i present
    exact sound.enter present (fun _ => rfl) nofun nofun
  · exact sound

theorem abort (sound : t.Sound) (waiter : Nat) : (t.abort waiter).Sound := by
  unfold Token.abort
  split
  · rename_i present
    exact sound.enter present nofun nofun nofun
  · rename_i present
    exact sound.enter present (fun _ => rfl) nofun nofun
  · exact sound

theorem after (sound : t.Sound) : (action : Action) → (t.after action).Sound
  | .arrive => sound.arrive
  | .advance waiter => sound.advance waiter
  | .cancel => sound.cancel
  | .wake waiter => sound.wake waiter
  | .expire waiter => sound.expire waiter
  | .abort waiter => sound.abort waiter

theorem afterAll (sound : t.Sound) (history : List Action) : (t.afterAll history).Sound := by
  induction history generalizing t with
  | nil => exact sound
  | cons action history ih => exact ih (sound.after action)

end Sound

/-! ## What a waiter goes through -/

theorem length_after (stays : action ≠ .arrive) :
    (t.after action).waiters.length = t.waiters.length := by
  cases action with
  | arrive => exact absurd rfl stays
  | _ =>
      simp only [after, advance, cancel, wake, expire, abort]
      repeat' split
      all_goals first | rfl | exact List.length_set

/-- Whoever is not there yet can at most arrive. -/
theorem eq_arriving_of_absent (absent : t.phase? waiter = none)
    (present : (t.after action).phase? waiter = some phase) : phase = .arriving := by
  by_cases arrives : action = .arrive
  · subst arrives
    rcases phase?_of_arrive present with before | arriving
    · cases absent.symm.trans before
    · exact arriving
  · have beyond := List.getElem?_eq_none_iff.1 absent
    rw [← length_after arrives] at beyond
    cases (List.getElem?_eq_none_iff.2 beyond).symm.trans present

/-- What holds of a waiter that arrives and is kept by its moves holds of it whenever it is
there. -/
theorem phase_invariant (invariant : Phase → Prop) (begins : invariant .arriving)
    (keeps : ∀ (u : Token) (action : Action) (old new : Phase),
      (t.cancelled = true → u.cancelled = true) → action ∈ history →
      Moves u waiter action old new → invariant old → invariant new)
    (start : ∀ phase, t.phase? waiter = some phase → invariant phase) :
    ∀ phase, (t.afterAll history).phase? waiter = some phase → invariant phase := by
  induction history generalizing t with
  | nil => exact start
  | cons action history ih =>
      have up : t.cancelled = true → (t.after action).cancelled = true :=
        fun raised => (cancelled_after t action).2 (.inl raised)
      refine ih (fun u later old new raised member => ?_) fun phase present => ?_
      · exact keeps u later old new (raised ∘ up) (List.mem_cons_of_mem action member)
      · cases before : t.phase? waiter with
        | none =>
            rw [eq_arriving_of_absent before present]
            exact begins
        | some old =>
            rcases phase?_after before action with unmoved | ⟨new, moves⟩
            · cases unmoved.symm.trans present
              exact start phase before
            · cases (moves.phase? before).symm.trans present
              exact keeps t action old phase id List.mem_cons_self moves (start old before)

/-- A wait that begins when the flag is up answers at its first step, unless its task is given up
before. -/
theorem eq_answered_of_late (up : t.cancelled = true)
    (late : ∀ phase, t.phase? waiter = some phase → phase = .arriving)
    (present : (t.afterAll later).phase? waiter = some phase) :
    phase = .arriving ∨ phase = .answered true ∨ phase = .aborted ∧ .abort waiter ∈ later := by
  refine phase_invariant
    (fun phase => phase = .arriving ∨ phase = .answered true ∨
      phase = .aborted ∧ .abort waiter ∈ later)
    (.inl rfl) ?_ (fun phase before => .inl (late phase before)) phase present
  intro u action old new raised member moves before
  rcases before with rfl | rfl | ⟨rfl, -⟩
  · cases moves with
    | tests => exact .inr (.inl (if_pos (raised up)))
    | turnsBack => exact .inr (.inr ⟨rfl, member⟩)
  · cases moves
  · cases moves

/-- Only a task that is given up ends without an answer. -/
theorem isGivenUp_eq_false (kept : .abort waiter ∉ history)
    (present : (({} : Token).afterAll history).phase? waiter = some phase) :
    phase.isGivenUp = false := by
  refine phase_invariant (·.isGivenUp = false) rfl ?_ (fun phase before => by cases before) phase
    present
  intro u action old new _ member moves before
  cases moves with
  | tests | rechecks => split <;> rfl
  | leaves =>
      cases before
      rfl
  | turnsBack | givesUp => exact absurd member kept
  | _ => rfl

theorem Moves.value_eq (moves : Moves t waiter action old new) {value : Bool}
    (answers : new = .answered value) :
    value = t.cancelled ∧ action = .advance waiter := by
  cases moves with
  | tests =>
      split at answers
      · rename_i up
        cases answers
        exact ⟨up.symm, rfl⟩
      · cases answers
  | answers =>
      cases answers
      exact ⟨rfl, rfl⟩
  | rechecks | leaves => split at answers <;> cases answers
  | _ => cases answers

/-! ## Every wait ends once the flag is up -/

theorem Moves.mayAnswerYes (moves : Moves t waiter action old new) (up : t.cancelled = true)
    (kept : action ≠ .abort waiter) (hopeful : old.mayAnswerYes = true) :
    new.mayAnswerYes = true := by
  cases moves with
  | tests | rechecks => rw [if_pos up]; rfl
  | leaves =>
      rename_i aborting
      cases aborting
      · rfl
      · cases hopeful
  | answers => exact up
  | turnsBack | givesUp => exact absurd rfl kept
  | _ => rfl

/-- While the flag is up nobody falls asleep, and a waiter that is awake comes closer to its end
with every move. -/
theorem Moves.awake (moves : Moves t waiter action old new) (up : t.cancelled = true)
    (awake : old ≠ .suspended false) :
    new ≠ .suspended false ∧ new.stepsLeft ≤ old.stepsLeft ∧
      (action = .advance waiter → new.stepsLeft < old.stepsLeft) := by
  cases moves with
  | tests | rechecks =>
      rw [if_pos up]
      simp [Phase.stepsLeft]
  | leaves =>
      rename_i aborting
      cases aborting <;> simp [Phase.stepsLeft]
  | _ => simp [Phase.stepsLeft]

theorem exists_advance (awake : old ≠ .suspended false) (unfinished : old.stepsLeft ≠ 0) :
    ∃ new, Moves t waiter (.advance waiter) old new := by
  rcases old with _ | _ | _ | (_ | _) | _ | _ | _ | _
  · exact ⟨_, .tests⟩
  · exact ⟨_, .registers⟩
  · exact ⟨_, .rechecks⟩
  · exact absurd rfl awake
  · exact ⟨_, .resumes⟩
  · exact ⟨_, .leaves⟩
  · exact ⟨_, .answers⟩
  · exact absurd rfl unfinished
  · exact absurd rfl unfinished

/-- One action, seen from a waiter that is awake: the steps that it has left are no more than the
turns that it still gets. -/
theorem exists_awake_after (up : t.cancelled = true) (present : t.phase? waiter = some old)
    (hopeful : old.mayAnswerYes = true) (awake : old ≠ .suspended false)
    (kept : action ≠ .abort waiter)
    (enough : old.stepsLeft ≤ (action :: later).count (.advance waiter)) :
    ∃ new, (t.after action).phase? waiter = some new ∧ new.mayAnswerYes = true ∧
      new ≠ .suspended false ∧ new.stepsLeft ≤ later.count (.advance waiter) := by
  have moved : ∀ {new}, Moves t waiter action old new →
      ∃ new, (t.after action).phase? waiter = some new ∧ new.mayAnswerYes = true ∧
        new ≠ .suspended false ∧ new.stepsLeft ≤ later.count (.advance waiter) := by
    intro new moves
    obtain ⟨stays, fewer, turn⟩ := moves.awake up awake
    refine ⟨new, moves.phase? present, moves.mayAnswerYes up kept hopeful, stays, ?_⟩
    by_cases own : action = .advance waiter
    · have less := turn own
      rw [own, List.count_cons_self] at enough
      omega
    · rw [List.count_cons_of_ne own] at enough
      omega
  rcases phase?_after present action with unmoved | ⟨new, moves⟩
  · by_cases finished : old.stepsLeft = 0
    · exact ⟨old, unmoved, hopeful, awake, by omega⟩
    · by_cases own : action = .advance waiter
      · have steps : ∃ new, Moves t waiter (.advance waiter) old new :=
          exists_advance awake finished
        obtain ⟨new, moves⟩ := steps
        exact moved (own ▸ moves)
      · rw [List.count_cons_of_ne own] at enough
        exact ⟨old, unmoved, hopeful, awake, enough⟩
  · exact moved moves

/-- While the flag is up, a waiter that is awake answers yes if it gets its turns. -/
theorem answers_of_awake (up : t.cancelled = true) (present : t.phase? waiter = some old)
    (hopeful : old.mayAnswerYes = true) (awake : old ≠ .suspended false)
    (kept : .abort waiter ∉ later) (enough : old.stepsLeft ≤ later.count (.advance waiter)) :
    (t.afterAll later).phase? waiter = some (.answered true) := by
  induction later generalizing t old with
  | nil =>
      have finished : old.stepsLeft = 0 := Nat.le_zero.1 enough
      cases old with
      | answered cancelled =>
          cases hopeful
          exact present
      | aborted => cases hopeful
      | _ => cases finished
  | cons action later ih =>
      have apart : action ≠ .abort waiter := (List.ne_of_not_mem_cons kept).symm
      have kept := List.not_mem_of_not_mem_cons kept
      obtain ⟨new, present, hopeful, awake, enough⟩ :=
        exists_awake_after up present hopeful awake apart enough
      exact ih ((cancelled_after t action).2 (.inl up)) present hopeful awake kept enough

/-- After its wake-up a waiter is awake. -/
theorem exists_awake_of_wake (sound : t.Sound) (up : t.cancelled = true)
    (present : t.phase? waiter = some old) (hopeful : old.mayAnswerYes = true) :
    ∃ new, (t.after (.wake waiter)).phase? waiter = some new ∧ new.mayAnswerYes = true ∧
      new ≠ .suspended false := by
  by_cases asleep : old = .suspended false
  · subst asleep
    have moves : Moves t waiter (.wake waiter) (.suspended false) (.suspended true) :=
      .wakes (sound.roused up waiter present)
    exact ⟨_, moves.phase? present, rfl, nofun⟩
  · rcases phase?_after present (.wake waiter) with unmoved | ⟨new, moves⟩
    · exact ⟨old, unmoved, hopeful, asleep⟩
    · exact ⟨new, moves.phase? present, moves.mayAnswerYes up nofun hopeful,
        (moves.awake up asleep).1⟩

theorem mayAnswerYes_of_kept (going : phase.isGivenUp = false)
    (unanswered : phase ≠ .answered false) : phase.mayAnswerYes = true := by
  cases phase with
  | leaving aborting =>
      cases going
      rfl
  | aborted => cases going
  | answered cancelled =>
      cases cancelled with
      | true => rfl
      | false => exact absurd rfl unanswered
  | _ => rfl

theorem Sound.register_eq_nil (sound : t.Sound)
    (idle : ∀ phase ∈ t.waiters, phase.isInProgress = false) : t.register = [] := by
  refine List.eq_nil_iff_forall_not_mem.2 fun waiter member => ?_
  obtain ⟨phase, present, listed⟩ := sound.listed waiter member
  have ended := idle phase (List.mem_of_getElem? present)
  cases ended.symm.trans (Phase.isInProgress_of_mayBeListed listed)

/-- However waits and cancels interleave, no waiter sleeps through a cancel: when the flag is up,
each one that sleeps has been woken up or its wake-up is on its way.  A wait that begins when the
flag is up answers yes at its first step.  What a waiter answers is the flag at that moment; the
flag is up once a cancel has come, and stays up.  When no wait is in progress the register is empty.
And once the flag is up, every waiter that goes on answers yes as soon as it has been woken up and
has had its turns. -/
theorem no_wakeUp_lost (history : List Action) (waiter : Nat) :
    let t := ({} : Token).afterAll history
    (t.cancelled = true → ∀ woken, t.phase? waiter = some (.suspended woken) →
        woken = true ∨ waiter ∈ t.wakeUps) ∧
      (t.cancelled = true → (∀ phase, t.phase? waiter = some phase → phase = .arriving) →
        ∀ later phase, (t.afterAll later).phase? waiter = some phase →
          phase = .arriving ∧
              (t.afterAll (later ++ [.advance waiter])).phase? waiter = some (.answered true) ∨
            phase = .answered true ∨ phase = .aborted ∧ .abort waiter ∈ later) ∧
      (∀ action value, t.phase? waiter ≠ some (.answered value) →
        (t.after action).phase? waiter = some (.answered value) →
          value = t.cancelled ∧ value = (t.after action).cancelled) ∧
      (t.cancelled = true ↔ .cancel ∈ history) ∧
      (t.cancelled = true → ∀ later, (t.afterAll later).cancelled = true) ∧
      ((∀ phase ∈ t.waiters, phase.isInProgress = false) → t.register = []) ∧
      (t.cancelled = true → ∀ phase, t.phase? waiter = some phase → phase ≠ .answered false →
        ∀ later, .abort waiter ∉ history ++ later → 4 ≤ later.count (.advance waiter) →
          (t.afterAll (.wake waiter :: later)).phase? waiter = some (.answered true)) := by
  intro t
  have sound : t.Sound := Sound.empty.afterAll history
  have stays : t.cancelled = true → ∀ later, (t.afterAll later).cancelled = true :=
    fun up later => (cancelled_afterAll t later).2 (.inl up)
  refine ⟨?roused, ?late, ?value, ?raised, stays, sound.register_eq_nil, ?ends⟩
  case roused =>
    rintro up (_ | _) asleep
    · exact .inr (sound.roused up waiter asleep)
    · exact .inl rfl
  case late =>
    intro up late later phase present
    rcases eq_answered_of_late up late present with rfl | ended
    · have tests := (Moves.tests (t := t.afterAll later)).phase? present
      rw [stays up later] at tests
      rw [afterAll_append]
      exact .inl ⟨rfl, tests⟩
    · exact .inr ended
  case value =>
    intro action value before present
    cases here : t.phase? waiter with
    | none => cases eq_arriving_of_absent here present
    | some old =>
        rcases phase?_after here action with unmoved | ⟨new, moves⟩
        · exact absurd (here.trans (unmoved.symm.trans present)) before
        · have answered := Option.some.inj ((moves.phase? here).symm.trans present)
          obtain ⟨rfl, rfl⟩ := moves.value_eq answered
          exact ⟨rfl, (cancelled_advance t waiter).symm⟩
  case raised =>
    simpa only [Bool.false_eq_true, false_or] using cancelled_afterAll {} history
  case ends =>
    intro up phase present unanswered later kept enough
    have going := isGivenUp_eq_false (mt (List.mem_append_left later) kept) present
    obtain ⟨new, awakened, hopeful, awake⟩ :=
      exists_awake_of_wake sound up present (mayAnswerYes_of_kept going unanswered)
    have raised : (t.after (.wake waiter)).cancelled = true :=
      (cancelled_after t (.wake waiter)).2 (.inl up)
    rw [afterAll_cons]
    exact answers_of_awake raised awakened hopeful awake (mt (List.mem_append_right history) kept)
      (Nat.le_trans new.stepsLeft_le enough)

/-- When the cancel comes, one waiter sleeps and another one has found the flag down but is not yet
on the register. -/
def crossing : List Action :=
  [.arrive, .arrive, .advance 0, .advance 1, .advance 0, .advance 0, .cancel]

/-- The sleeper is woken up, the other one registers too late and leaves, and a third one arrives
and answers between their steps. -/
def aftermath : List Action :=
  [.advance 1, .arrive, .advance 0, .advance 2, .advance 1, .advance 0, .advance 0, .advance 1,
    .advance 0, .advance 1]

theorem crossing_wakeUp_kept :
    let t := ({} : Token).afterAll crossing
    t.phase? 0 = some (.suspended false) ∧ t.phase? 1 = some .registering ∧ t.phase? 2 = none ∧
      t.cancelled = true ∧ 0 ∈ t.wakeUps ∧
      (t.afterAll (.wake 0 :: aftermath)).phase? 0 = some (.answered true) ∧
      (t.afterAll (.wake 1 :: aftermath)).phase? 1 = some (.answered true) ∧
      (t.afterAll ([.arrive] ++ [.advance 2])).phase? 2 = some (.answered true) ∧
      (t.afterAll (aftermath ++ [.cancel])).cancelled = true ∧
      true = (({} : Token).afterAll (crossing ++ [.wake 0, .advance 0, .advance 0])).cancelled ∧
      (({} : Token).afterAll (crossing ++ .wake 0 :: aftermath)).register = [] := by
  intro t
  obtain ⟨roused, -, -, raised, stays, -, ends⟩ := no_wakeUp_lost crossing 0
  obtain ⟨-, -, -, -, -, -, latecomer⟩ := no_wakeUp_lost crossing 1
  obtain ⟨-, late, -⟩ := no_wakeUp_lost crossing 2
  obtain ⟨-, -, -, -, -, empty, -⟩ := no_wakeUp_lost (crossing ++ .wake 0 :: aftermath) 0
  obtain ⟨-, -, value, -⟩ := no_wakeUp_lost (crossing ++ [.wake 0, .advance 0, .advance 0]) 0
  have up : t.cancelled = true := raised.2 (by decide)
  have absent : t.phase? 2 = none := by decide
  have quiet := empty (by decide)
  have answered := (value (.advance 0) true (by decide) (by decide)).1
  have still := stays up (aftermath ++ [.cancel])
  refine ⟨by decide, by decide, absent, up, ?_, ?_, ?_, ?_, still, answered, quiet⟩
  · exact (roused up false (by decide)).resolve_left (by decide)
  · exact ends up (.suspended false) (by decide) nofun aftermath (by decide) (by decide)
  · exact latecomer up .registering (by decide) nofun aftermath (by decide) (by decide)
  · rcases late up (fun phase present => by cases absent.symm.trans present) [.arrive] .arriving
      (by decide) with ⟨-, answered⟩ | unlike | ⟨unlike, -⟩
    · exact answered
    · cases unlike
    · cases unlike

end Token

end MusicAlgebra.Cancellation
