import MusicAlgebra.Proofs.PlayablePerformance
import MusicAlgebra.Proofs.RetimedPerformance

/-!
# Hastened performances

A tempo is a scale of time.  Music at `r` times the tempo sounds the same events, `r` times as close
to the start of the passage and `r` times as short, whatever its phrases do to them.  Trills whose
notes have a length of their own are left out: that length is measured in performance time and does
not follow a tempo.  As for every score, the duration of the whole must be one that can be written,
and a tempo may take it beyond that.
-/

namespace MusicAlgebra

open Outcome

variable {players : Registry} {c : Context}

namespace Performance

/-- The same performance `r` times as fast from a moment on. -/
def hastened (start r : Rat) (p : Performance) : Performance where
  events := p.events.map fun e =>
    { e with onset := start + (e.onset - start) / r, duration := e.duration / r }
  duration := p.duration / r

theorem hurry_performance (start : Rat) (r : Scale) :
    (Retiming.hurry start r).performance = hastened start r.val := by
  funext p
  simp only [Retiming.performance, hastened, Retiming.hurry_length]
  congr 2
  funext e
  simp only [Retiming.event, Retiming.hurry_moment, Retiming.hurry_length]

end Performance

namespace Music

open Performance

/-- The tempo law.  Under a tempo `r` every onset is `r` times as close to the start of the passage,
and every duration and that of the whole are divided by `r`.  Pitches, volumes, instruments, the
order of the events and any failure stay; the public entry looks at the new duration alone. -/
theorem perform_hastened [Limits] (builtIn : players.BuiltIn) {m : Music} (elastic : m.Elastic)
    (moving : 0 < c.tempo) (r : Scale) :
    (modified (.tempo r) m).perform players c =
        hastened c.startTime r.val <$> m.perform players c ∧
      (Operand.music (modified (.tempo r) m)).perform players c = (do
        let p ← m.perform players c
        granted (p.hastened c.startTime r.val)) := by
  have hurried : (modified (.tempo r) m).perform players c =
      hastened c.startTime r.val <$> m.perform players c := by
    rw [perform_modified players m c (by simp), Context.under, ok_bind, ← Retiming.hurry_context,
      ← hurry_performance]
    exact perform_retimed builtIn (.inl elastic) moving
  refine ⟨hurried, ?_⟩
  rw [Operand.perform, hurried, bind_map_left]

/-- A phrase with every effect that computes with time: notes trilled by number, mordents, a slowing
down within which a chord is rolled, and a pedal under it all. -/
def ornatePassage : Music :=
  modified (.phrase [.crescendo (.nearest 1), .ritardando (.nearest (1 / 3)), .pedal])
    (sequential
      (modified (.phrase [.trill (.byCount 5 (by decide)), .slurred (.nearest (5 / 4))])
        (modified (.tempo ⟨2 / 3, by decide +kernel⟩) (quarter .c)))
      (parallel
        (modified (.phrase [.arpeggioDown, .accelerando (.nearest (1 / 4)) (by decide +kernel)])
          (parallel (quarter .e) (quarter .g)))
        (modified (.phrase [.mordent]) (modified (.player (.text "ringing")) (quarter .b)))))

theorem ornatePassage_elastic : ornatePassage.Elastic := by
  simp [ornatePassage, Elastic, Attribute.Elastic, TrillSpeed.Elastic, quarter]

open Usual

theorem ornatePassage_hastened :
    ringingPlayers.BuiltIn ∧ ornatePassage.Elastic ∧ (0 : Rat) < 3 / 2 ∧
      ∃ p, ornatePassage.perform ringingPlayers { startTime := 5 / 7, tempo := 3 / 2 } = .ok p ∧
        (modified (.tempo ⟨4 / 3, by decide +kernel⟩) ornatePassage).perform ringingPlayers
          { startTime := 5 / 7, tempo := 3 / 2 } = .ok (p.hastened (5 / 7) (4 / 3)) := by
  have moving : (0 : Rat) < 3 / 2 := by decide +kernel
  obtain ⟨p, performed⟩ := exists_of_isOk (show
    (ornatePassage.perform ringingPlayers { startTime := 5 / 7, tempo := 3 / 2 }).isOk = true by
      decide +kernel)
  have hurried := (perform_hastened (c := { startTime := 5 / 7, tempo := 3 / 2 })
    ringingPlayers_builtIn ornatePassage_elastic moving ⟨4 / 3, by decide +kernel⟩).1
  rw [performed] at hurried
  exact ⟨ringingPlayers_builtIn, ornatePassage_elastic, moving, p, performed, hurried⟩

/-- So slow that a whole note lasts for a number of notes with too many digits. -/
def standstill : Scale := ⟨1 / 10 ^ 4300, by decide +kernel⟩

theorem unwritable_tempo :
    (Operand.music (rest (.nearest 1))).perform ringingPlayers {} = .ok ⟨[], 1⟩ ∧
      (Operand.music (modified (.tempo standstill) (rest (.nearest 1)))).perform
        ringingPlayers {} = .error .unwritableDuration := by
  obtain ⟨p, performed⟩ := exists_of_isOk (show
    ((modified (.tempo standstill) (rest (.nearest 1))).perform ringingPlayers {}).isOk = true by
      decide +kernel)
  have moving : 0 < ({} : Context).tempo := by decide +kernel
  have endless : Number.isWritable
      ((modified (.tempo standstill) (rest (.nearest 1))).duration.val /
        ({} : Context).tempo) = false := by decide +kernel
  constructor
  · apply eq_ok_of_toOption
    decide +kernel
  · rw [Operand.perform, performed, ok_bind, granted, duration_of_perform moving performed, endless]
    rfl

end Music

end MusicAlgebra
