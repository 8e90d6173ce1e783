import MusicAlgebra.Proofs.PlayablePerformance
import MusicAlgebra.Proofs.RetimedPerformance

/-!
# Delayed performances

Nothing in a score depends on when it is performed.  A later start delays every event by the same
time and changes nothing else, so the second passage of a sequence can be performed from the start
as well and delayed afterwards.  Only one thing is not settled by the passages of a sequence alone:
the public entry tells the duration of the whole, which may have too many digits to be written
although the durations of the passages can be.
-/

namespace MusicAlgebra

open Outcome

variable {players : Registry} {c : Context}

namespace Performance

/-- The same performance some time later. -/
def postponed (t : Rat) (p : Performance) : Performance :=
  { p with events := p.events.map fun e => { e with onset := e.onset + t } }

theorem delay_performance (t : Rat) : (Retiming.delay t).performance = postponed t := by
  funext p
  simp only [Retiming.performance, postponed, Retiming.delay_length]
  congr 2
  funext e
  simp only [Retiming.event, Retiming.delay_moment, Retiming.delay_length]

theorem granted_postponed [Limits] (t : Rat) (p : Performance) :
    (p.postponed t).granted = postponed t <$> p.granted := by
  have lasting : (p.postponed t).duration = p.duration := rfl
  rw [granted, granted, lasting]
  split <;> rfl

end Performance

namespace Music

open Performance

theorem perform_later [Limits] (builtIn : players.BuiltIn) (m : Music) (moving : 0 < c.tempo)
    (t : Rat) :
    m.perform players { c with startTime := c.startTime + t } =
      postponed t <$> m.perform players c := by
  rw [← delay_performance, ← Retiming.delay_context]
  exact perform_retimed builtIn (.inr rfl) moving

/-- The two passages of a sequence, both performed from its start. -/
theorem perform_sequential_delayed [Limits] (builtIn : players.BuiltIn) (m next : Music)
    (moving : 0 < c.tempo) :
    (sequential m next).perform players c = (do
      let first ← m.perform players c
      let second ← next.perform players c
      return {
        events := Event.merge [first.events, (second.postponed (m.duration.val / c.tempo)).events]
        duration := first.duration + second.duration }) := by
  rw [perform_sequential_pair players m next moving, perform_later builtIn next moving]
  cases first : m.perform players c with
  | error failure => rfl
  | ok p =>
      cases second : next.perform players c with
      | error failure => rfl
      | ok q =>
          have lasted := duration_of_perform moving first
          have nextLasted := duration_of_perform moving second
          rw [duration_sequential, Amount.val_add, add_div, ← lasted, ← nextLasted]
          simp only [map_ok, ok_bind, Event.merge_cons, Event.merge_nil, List.merge_right]

/-- Performing later is performing, only later: the events in their order, the duration and any
failure are the same, and every onset is delayed.  So a sequence is its first passage merged with
its second one, delayed by the length of the first, and of simultaneous events those of the first
passage come first.  The public entry adds nothing but a look at the duration of the whole. -/
theorem perform_delayed [Limits] (builtIn : players.BuiltIn) (m : Music) (moving : 0 < c.tempo) :
    (∀ t, m.perform players { c with startTime := c.startTime + t } =
      postponed t <$> m.perform players c) ∧
    (∀ t, (Operand.music m).perform players { c with startTime := c.startTime + t } =
      postponed t <$> (Operand.music m).perform players c) ∧
    ∀ next,
      (sequential m next).perform players c = (do
        let first ← m.perform players c
        let second ← next.perform players c
        return {
          events := Event.merge [first.events, (second.postponed (m.duration.val / c.tempo)).events]
          duration := first.duration + second.duration }) ∧
      (Operand.music (sequential m next)).perform players c = (do
        let first ← m.perform players c
        let second ← next.perform players c
        granted {
          events := Event.merge [first.events, (second.postponed (m.duration.val / c.tempo)).events]
          duration := first.duration + second.duration }) ∧
      ∀ first second, m.perform players c = .ok first → next.perform players c = .ok second →
        Event.Joined first.events (second.postponed (m.duration.val / c.tempo)).events
          (Event.merge [first.events, (second.postponed (m.duration.val / c.tempo)).events]) := by
  refine ⟨perform_later builtIn m moving, ?_, ?_⟩
  · intro t
    rw [Operand.perform, Operand.perform, perform_later builtIn m moving]
    cases m.perform players c with
    | error failure => rfl
    | ok p => rw [map_ok, ok_bind, ok_bind, granted_postponed]
  · intro next
    have sequenced := perform_sequential_delayed builtIn m next moving
    refine ⟨sequenced, ?_, ?_⟩
    · rw [Operand.perform, sequenced]
      simp only [bind_assoc, pure_bind]
    · intro first second performed nextPerformed
      rw [performed, nextPerformed] at sequenced
      obtain ⟨p, q, performed', delayed', joined⟩ :=
        joined_of_sequential builtIn.playsInOrder moving sequenced
      rw [perform_later builtIn next moving, nextPerformed] at delayed'
      cases performed.symm.trans performed'
      cases delayed'
      exact joined

/-- A chord that is rolled and swells while the time of its phrase is stretched. -/
def swellingChord : Music :=
  modified
    (.phrase [.arpeggioUp, .crescendo (.nearest 1), .ritardando (.nearest (1 / 2)), .pedal])
    (sequential (quarter .c) (parallel (quarter .e) (quarter .g)))

open Usual

theorem swellingChord_delayed :
    ringingPlayers.BuiltIn ∧ (0 : Rat) < 3 / 2 ∧
      ∃ p, swellingChord.perform ringingPlayers { startTime := 5 / 7, tempo := 3 / 2 } = .ok p ∧
        swellingChord.perform ringingPlayers { startTime := 5 / 7 + 3 / 8, tempo := 3 / 2 } =
          .ok (p.postponed (3 / 8)) ∧
        (sequential swellingChord swellingChord).perform ringingPlayers
            { startTime := 5 / 7, tempo := 3 / 2 } =
          .ok ⟨Event.merge [p.events, (p.postponed (3 / 4 / (3 / 2))).events], 1 / 2 + 1 / 2⟩ := by
  have moving : (0 : Rat) < 3 / 2 := by decide +kernel
  obtain ⟨p, performed⟩ := exists_of_isOk (show
    (swellingChord.perform ringingPlayers { startTime := 5 / 7, tempo := 3 / 2 }).isOk = true by
      decide +kernel)
  obtain ⟨later, -, sequenced⟩ := perform_delayed (c := { startTime := 5 / 7, tempo := 3 / 2 })
    ringingPlayers_builtIn swellingChord moving
  have written : swellingChord.duration.val = 3 / 4 := by decide +kernel
  have lasted : p.duration = 1 / 2 := by
    rw [duration_of_perform moving performed, written]
    decide +kernel
  have postponed := later (3 / 8)
  have followed := (sequenced swellingChord).1
  rw [performed] at postponed followed
  rw [written] at followed
  refine ⟨ringingPlayers_builtIn, moving, p, performed, postponed, followed.trans ?_⟩
  simp only [ok_bind, lasted]
  rfl

/-- A quarter before a rest that is as short as can be written. -/
def quarterBeforeBreath : Music := sequential (quarter .c) (rest (.nearest (1 / 10 ^ 4299)))

/-- The parts of a sequence have durations that can be written, and the whole has not: the sum of
the lengths takes more digits. -/
theorem unwritable_sequence :
    ∃ p q, (Operand.music quarterBeforeBreath).perform ringingPlayers {} = .ok p ∧
      (Operand.music (rest (.nearest (1 / 11)))).perform ringingPlayers {} = .ok q ∧
      (Operand.music (sequential quarterBeforeBreath (rest (.nearest (1 / 11))))).perform
        ringingPlayers {} = .error .unwritableDuration := by
  obtain ⟨p, performed⟩ := exists_of_isOk (show
    ((Operand.music quarterBeforeBreath).perform ringingPlayers {}).isOk = true by decide +kernel)
  obtain ⟨q, next⟩ := exists_of_isOk (show
    ((Operand.music (rest (.nearest (1 / 11)))).perform ringingPlayers {}).isOk = true by
      decide +kernel)
  obtain ⟨whole, sequenced⟩ := exists_of_isOk (show
    ((sequential quarterBeforeBreath (rest (.nearest (1 / 11)))).perform
      ringingPlayers {}).isOk = true by decide +kernel)
  have moving : 0 < ({} : Context).tempo := by decide +kernel
  have endless : Number.isWritable
      ((sequential quarterBeforeBreath (rest (.nearest (1 / 11)))).duration.val /
        ({} : Context).tempo) = false := by decide +kernel
  refine ⟨p, q, performed, next, ?_⟩
  rw [Operand.perform, sequenced, ok_bind, granted, duration_of_perform moving sequenced, endless]
  rfl

end Music

end MusicAlgebra
