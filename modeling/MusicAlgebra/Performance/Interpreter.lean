import MusicAlgebra.Performance.Registry
import MusicAlgebra.Score.Length
import MusicAlgebra.Score.Operand

/-!
# Performing music

`Music.perform` interprets a score in a context.  The operands of a sequential chain are performed
in turn, each starting where the one before it ended, those of a parallel chain from the same
moment; their events are then merged at once.  A modifier derives the context of its passage.  A
phrase first performs its passage and then reshapes the events by its attributes in order.  Nothing
is shared between passages, so the result depends on the score, the context and the players alone.
Lengths inside a score are exact rationals of any size; the duration of the whole is told to the
user, and must be one that can be written.
-/

namespace MusicAlgebra

namespace Context

/-- The context in which the passage under a modifier is performed. -/
def under [Limits] (players : Registry) (c : Context) : Modifier → Except PerformFailure Context
  | .tempo scale => .ok { c with tempo := c.tempo * scale.val }
  | .transpose semitones => .ok { c with transposition := c.transposition + semitones }
  | .instrument given =>
    match Instrument.ofDatum? given with
    | some i => .ok { c with instrument := i.name }
    | none => .error (.told (.unknownInstrument given))
  | .key key => .ok { c with key }
  | .player name => (players.resolve name).map fun _ => { c with player := name }
  | .dynamics delta => .ok { c with volume := Volume.clamp (c.volume + delta) }
  | .phrase _ => .error .phraseOnContext

/-- The context of a phrase's passage: the last attribute that sets a volume wins. -/
def withLoudness (c : Context) (attributes : List Attribute) : Context :=
  attributes.foldl
    (fun c shaping =>
      match shaping.volume? with
      | some volume => { c with volume := volume.val }
      | none => c) c

end Context

namespace Performance

/-- Reshape a phrase by one attribute.  The tempo attributes stretch its time, loudness has had its
effect already, and everything else is left to the player. -/
def shape [Limits] (player : Player) (context : Context) (p : Performance) (shaping : Attribute) :
    Except PerformFailure Performance :=
  let span : Span := ⟨context.startTime, p.duration⟩
  match shaping with
  | .loudness _ => .ok p
  | .dynamic _ => .ok p
  | .ritardando amount =>
    .ok {
      events := p.events.map (span.stretch amount.val)
      duration := p.duration * (1 + amount.val) }
  | .accelerando amount _ =>
    .ok {
      events := p.events.map (span.stretch (-amount.val))
      duration := p.duration * (1 - amount.val) }
  | _ => do
    let events ← player.interpretPhrase p.events shaping context span
    return { p with events }

/-- Reshape a phrase by all its attributes and bring its events back into order. -/
def shapeAll [Limits] (player : Player) (context : Context) (attributes : List Attribute)
    (p : Performance) : Except PerformFailure Performance := do
  let shaped ← attributes.foldlM (shape player context) p
  return { shaped with events := Event.sort shaped.events }

/-- Perform parts one after the other from a moment on: the streams of their events, and the moment
at which the last part ends. -/
def inTurn {α : Type} (play : α → Rat → Except PerformFailure Performance) :
    List α → Rat → Except PerformFailure (List (List Event) × Rat)
  | [], start => .ok ([], start)
  | part :: parts, start => do
    let played ← play part start
    let (streams, finish) ← inTurn play parts (start + played.duration)
    return (played.events :: streams, finish)

/-- Perform parts from the same moment: the streams of their events, and the longest duration, which
is at least the one given. -/
def together {α : Type} (play : α → Except PerformFailure Performance) :
    List α → Rat → Except PerformFailure (List (List Event) × Rat)
  | [], longest => .ok ([], longest)
  | part :: parts, longest => do
    let played ← play part
    let (streams, longest) ← together play parts (later longest played.duration)
    return (played.events :: streams, longest)

theorem inTurn_map {α β : Type} (play : β → Rat → Except PerformFailure Performance) (f : α → β)
    (parts : List α) (start : Rat) :
    inTurn play (parts.map f) start = inTurn (fun part => play (f part)) parts start := by
  induction parts generalizing start with
  | nil => rfl
  | cons part parts ih => simp only [List.map_cons, inTurn, ih]

theorem together_map {α β : Type} (play : β → Except PerformFailure Performance) (f : α → β)
    (parts : List α) (longest : Rat) :
    together play (parts.map f) longest = together (fun part => play (f part)) parts longest := by
  induction parts generalizing longest with
  | nil => rfl
  | cons part parts ih => simp only [List.map_cons, together, ih]

end Performance

namespace Music

open Performance

/-- Interpret music in a context.  Any failure is the result of the whole. -/
def perform [Limits] (players : Registry) (m : Music) (context : Context) :
    Except PerformFailure Performance :=
  match _ : m with
  | note n => do
    let player ← players.resolve context.player
    let events ← player.playNote n context
    let duration ← context.scale n.length.val
    return { events, duration }
  | rest length => do
    let duration ← context.scale length.val
    return { events := [], duration }
  | sequential .. => do
    let (streams, finish) ← inTurn
      (fun ⟨part, _⟩ startTime => part.perform players { context with startTime })
      (flatten .sequential m).attach context.startTime
    return { events := Event.merge streams, duration := finish - context.startTime }
  | parallel .. => do
    let (streams, duration) ← together (fun ⟨part, _⟩ => part.perform players context)
      (flatten .parallel m).attach 0
    return { events := Event.merge streams, duration }
  | modified (.phrase attributes) inner => do
    let context := context.withLoudness attributes
    let performed ← inner.perform players context
    let player ← players.resolve context.player
    performed.shapeAll player context attributes
  | modified modifier inner => do
    let context ← context.under players modifier
    inner.perform players context
termination_by m.nodes
decreasing_by
  · subst m
    exact nodes_lt_of_mem_flatten rfl ‹_›
  · subst m
    exact nodes_lt_of_mem_flatten rfl ‹_›
  · simp [nodes]
  · simp [nodes]

theorem perform_note [Limits] (players : Registry) (n : Note) (context : Context) :
    (note n).perform players context = (do
      let player ← players.resolve context.player
      let events ← player.playNote n context
      let duration ← context.scale n.length.val
      return { events, duration }) := by
  rw [perform]

theorem perform_rest [Limits] (players : Registry) (length : Amount) (context : Context) :
    (rest length).perform players context = (do
      let duration ← context.scale length.val
      return { events := [], duration }) := by
  rw [perform]

/-- A phrase performs its passage under its loudness and then reshapes it. -/
theorem perform_phrase [Limits] (players : Registry) (attributes : List Attribute) (inner : Music)
    (context : Context) :
    (modified (.phrase attributes) inner).perform players context = (do
      let context := context.withLoudness attributes
      let performed ← inner.perform players context
      let player ← players.resolve context.player
      performed.shapeAll player context attributes) := by
  rw [perform]

/-- Any other modifier changes the context of its passage and nothing else. -/
theorem perform_modified [Limits] (players : Registry) {modifier : Modifier} (inner : Music)
    (context : Context) (plain : ∀ attributes, modifier ≠ .phrase attributes) :
    (modified modifier inner).perform players context = (do
      let context ← context.under players modifier
      inner.perform players context) := by
  cases modifier with
  | phrase attributes => exact absurd rfl (plain attributes)
  | _ => rw [perform]; simp

/-- The operands of a sequential chain are performed in turn and merged at once. -/
theorem perform_sequential [Limits] (players : Registry) (left right : Music) (context : Context) :
    (sequential left right).perform players context = (do
      let (streams, finish) ← inTurn
        (fun part startTime => part.perform players { context with startTime })
        (flatten .sequential (sequential left right)) context.startTime
      return { events := Event.merge streams, duration := finish - context.startTime }) := by
  rw [perform]
  congr 1
  refine (inTurn_map
    (fun (part : Music) startTime => part.perform players { context with startTime })
    Subtype.val _ _).symm.trans ?_
  rw [List.attach_map_subtype_val]

/-- The operands of a parallel chain are performed together and merged at once. -/
theorem perform_parallel [Limits] (players : Registry) (left right : Music) (context : Context) :
    (parallel left right).perform players context = (do
      let (streams, duration) ← together (fun part => part.perform players context)
        (flatten .parallel (parallel left right)) 0
      return { events := Event.merge streams, duration }) := by
  rw [perform]
  congr 1
  refine (together_map (fun (part : Music) => part.perform players context)
    Subtype.val _ _).symm.trans ?_
  rw [List.attach_map_subtype_val]

end Music

/-- Grant a performance whose duration can be written. -/
def Performance.granted [Limits] (p : Performance) : Except PerformFailure Performance :=
  if Number.isWritable p.duration then .ok p else .error .unwritableDuration

/-- Interpret an operand, which must be music of a duration that can be written. -/
def Operand.perform [Limits] (players : Registry) (context : Context) :
    Operand → Except PerformFailure Performance
  | music m => m.perform players context >>= Performance.granted
  | other given => .error (.told (.notPerformable given))

end MusicAlgebra
