/-!
# Cancellation

A cancellation token is a request that is made once and never taken back, and that tasks can wait
for.  Waiting takes several steps, between which other tasks may do theirs: a waiter tests the flag,
registers, tests the flag again and goes to sleep.  A cancel raises the flag and takes all
registered waiters in one step, and a wake-up is then delivered to each of them.  The second test is
there for a cancel that comes between the first test and the registration.
-/

namespace MusicAlgebra.Cancellation

/-- How far a waiter has come. -/
inductive Phase where
  /-- It is about to test the flag for the first time. -/
  | arriving
  /-- It found the flag down and is about to register. -/
  | registering
  /-- It is registered and about to test the flag again. -/
  | rechecking
  /-- It sleeps, or has been woken up and is about to go on. -/
  | suspended (woken : Bool)
  /-- It is about to strike itself off the register. -/
  | leaving (aborted : Bool)
  /-- It is about to answer with the flag. -/
  | answering
  | answered (cancelled : Bool)
  | aborted
  deriving DecidableEq, Repr

/-- A token and all waiters that ever waited for it, numbered in the order of their arrival. -/
structure Token where
  cancelled : Bool := false
  /-- The registered waiters. -/
  register : List Nat := []
  /-- The waiters to whom a wake-up is still to be delivered. -/
  wakeUps : List Nat := []
  waiters : List Phase := []
  deriving DecidableEq, Repr

/-- One step of a waiter, of a cancelling task or of the scheduler. -/
inductive Action where
  /-- A waiter arrives. -/
  | arrive
  /-- A waiter takes the next step that it can take by itself. -/
  | advance (waiter : Nat)
  /-- The flag is raised and the registered waiters are taken. -/
  | cancel
  /-- A wake-up is delivered. -/
  | wake (waiter : Nat)
  /-- The time of a sleeping waiter is over. -/
  | expire (waiter : Nat)
  /-- The task of a waiter is given up. -/
  | abort (waiter : Nat)
  deriving DecidableEq, Repr

namespace Token

def phase? (t : Token) (waiter : Nat) : Option Phase := t.waiters[waiter]?

def enter (t : Token) (waiter : Nat) (phase : Phase) : Token :=
  { t with waiters := t.waiters.set waiter phase }

/-- The next step of a waiter.  One that sleeps or is done takes none. -/
def advance (t : Token) (waiter : Nat) : Token :=
  match t.phase? waiter with
  | some .arriving => t.enter waiter (if t.cancelled then .answered true else .registering)
  | some .registering => { t with register := t.register ++ [waiter] }.enter waiter .rechecking
  | some .rechecking => t.enter waiter (if t.cancelled then .leaving false else .suspended false)
  | some (.suspended true) => t.enter waiter (.leaving false)
  | some (.leaving aborted) =>
    { t with register := t.register.erase waiter }.enter waiter
      (if aborted then .aborted else .answering)
  | some .answering => t.enter waiter (.answered t.cancelled)
  | some (.suspended false) | some (.answered _) | some .aborted | none => t

/-- Raise the flag and take the registered waiters.  Later cancels change nothing. -/
def cancel (t : Token) : Token :=
  if t.cancelled then t
  else { t with cancelled := true, register := [], wakeUps := t.wakeUps ++ t.register }

/-- Deliver a wake-up.  A waiter that no longer sleeps does not notice. -/
def wake (t : Token) (waiter : Nat) : Token :=
  if waiter ∈ t.wakeUps then
    let t := { t with wakeUps := t.wakeUps.erase waiter }
    match t.phase? waiter with
    | some (.suspended _) => t.enter waiter (.suspended true)
    | _ => t
  else t

def expire (t : Token) (waiter : Nat) : Token :=
  match t.phase? waiter with
  | some (.suspended _) => t.enter waiter (.leaving false)
  | _ => t

/-- Give up the task of a waiter, which can happen before its first step and while it sleeps. -/
def abort (t : Token) (waiter : Nat) : Token :=
  match t.phase? waiter with
  | some .arriving => t.enter waiter .aborted
  | some (.suspended _) => t.enter waiter (.leaving true)
  | _ => t

/-- What an action makes of a token.  An action that cannot be taken changes nothing. -/
def after (t : Token) : Action → Token
  | .arrive => { t with waiters := t.waiters ++ [.arriving] }
  | .advance waiter => t.advance waiter
  | .cancel => t.cancel
  | .wake waiter => t.wake waiter
  | .expire waiter => t.expire waiter
  | .abort waiter => t.abort waiter

/-- A token after a history of actions, from the first to the last. -/
def afterAll (t : Token) (actions : List Action) : Token := actions.foldl after t

/-- A history may be cut anywhere. -/
theorem afterAll_append (t : Token) (earlier later : List Action) :
    t.afterAll (earlier ++ later) = (t.afterAll earlier).afterAll later := by
  simp only [afterAll, List.foldl_append]

/-! ## Undisturbed tasks -/

/-- The most steps that a waiter takes in its life: testing, registering, testing again, waking up,
leaving and answering. -/
def lifetime : Nat := 6

/-- Let a waiter go as far as it can. -/
def settle (t : Token) (waiter : Nat) : Token :=
  t.afterAll (List.replicate lifetime (.advance waiter))

/-- A task waits, forever or for a time that is over at once. -/
def wait (t : Token) (expires : Bool) : Token :=
  let waiter := t.waiters.length
  let t := (t.after .arrive).settle waiter
  if expires then (t.expire waiter).settle waiter else t

/-- A task cancels, and everyone who waited goes on. -/
def cancelAndWake (t : Token) : Token :=
  let t := t.cancel
  t.wakeUps.foldl (fun t waiter => (t.wake waiter).settle waiter) t

/-- A waiting task is given up. -/
def abandon (t : Token) (waiter : Nat) : Token := (t.abort waiter).settle waiter

/-- A cancel wakes the waiter that sleeps, and one that comes later does not go to sleep. -/
example : ((({} : Token).wait false).cancelAndWake.wait false).waiters =
    [.answered true, .answered true] := by decide

/-- A waiter that registers after a cancel missed it, and leaves at the second test. -/
example : (({} : Token).afterAll
    [.arrive, .advance 0, .cancel, .advance 0, .advance 0, .advance 0, .advance 0]).waiters =
    [.answered true] := by decide

end Token

end MusicAlgebra.Cancellation
