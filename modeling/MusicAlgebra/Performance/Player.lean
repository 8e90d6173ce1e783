import MusicAlgebra.Performance.Context
import MusicAlgebra.Performance.Ornament

/-!
# Players

A player decides how a written note becomes events and how attributes reshape the events of a
phrase, and may fail at either.  Four styles are built in; any other pair of functions makes a
player too.  Whatever a player does, it has no say in when the next passage starts.
-/

namespace MusicAlgebra

/-- Where a phrase starts and how long it lasts, in performance time. -/
structure Span where
  start : Rat
  duration : Rat
  deriving DecidableEq, Repr

namespace Span

/-- How far through the phrase an onset lies: zero at the start, one at the end.  A phrase of no
length has no way to go. -/
def progress (s : Span) (onset : Rat) : Rat :=
  if s.duration = 0 then 0 else (onset - s.start) / s.duration

/-- The greater of zero and a factor. -/
def nonnegative (factor : Rat) : Rat := if 0 ≤ factor then factor else 0

/-- Move an event under a gradual change of tempo.

An event at offset `t` of a phrase of duration `D` moves to the offset `t * (1 + amount * t / D)`,
and its end moves by the same rule.  Events that ring past the phrase would be turned round by a
fast acceleration; they are held where that happens. -/
def stretch (s : Span) (amount : Rat) (e : Event) : Event :=
  if s.duration = 0 then e
  else
    let rate := amount / s.duration
    let offset := e.onset - s.start
    { e with
      onset := s.start + offset * nonnegative (1 + offset * rate)
      duration := e.duration * nonnegative (1 + (2 * offset + e.duration) * rate) }

end Span

/-- The ways of playing that are built in. -/
inductive Style where
  /-- Notes as they are written; accents, staccato and legato phrases are understood. -/
  | literal
  /-- Every note sounds for a fraction of its length. -/
  | staccato (fraction : Rat) (inside : 0 < fraction ∧ fraction ≤ 1)
  /-- Every note rings into the next. -/
  | legato (overlap : Rat) (one_le : 1 ≤ overlap)
  /-- Notes as they are written; every attribute is understood. -/
  | fancy
  deriving DecidableEq

/-- A player: a built-in style, or functions of its own under a name of its own. -/
inductive Player where
  | builtIn (style : Style)
  | custom (name : String) (playNote : Note → Context → Except PerformFailure (List Event))
      (interpretPhrase :
        List Event → Attribute → Context → Span → Except PerformFailure (List Event))

namespace Style

def name : Style → String
  | literal => "default"
  | staccato .. => "staccato"
  | legato .. => "legato"
  | fancy => "fancy"

/-- By how much a style multiplies the sounding length of a note. -/
def lengthFactor : Style → Rat
  | staccato fraction _ => fraction
  | legato overlap _ => overlap
  | _ => 1

/-- The one event that a style makes of a note. -/
def playNote (style : Style) (n : Note) (context : Context) : Except PerformFailure Event := do
  let written ← context.literalEvent n
  return { written with duration := written.duration * style.lengthFactor }

/-- Replace the volume of every event by a computed one, cut down to an integer of the MIDI
range. -/
def reweigh (weight : Event → Rat) (events : List Event) : List Event :=
  events.map fun e => { e with volume := Volume.clamp (weight e).floor }

/-- Multiply the duration of every event. -/
def rescale (fraction : Rat) (events : List Event) : List Event :=
  events.map fun e => { e with duration := e.duration * fraction }

/-- What every style makes of an attribute. -/
def interpretCommon (events : List Event) : Attribute → List Event
  | .accent factor => reweigh (fun e => e.volume * factor.val) events
  | .staccato fraction => rescale fraction.val events
  | .legato fraction => rescale fraction.val events
  | _ => events

/-- What the fancy style makes of an attribute. -/
def interpretFancy [Limits] (events : List Event) (shaping : Attribute) (key : Key) (span : Span) :
    Except PerformFailure (List Event) :=
  match shaping with
  | .crescendo amount =>
    .ok (reweigh (fun e => e.volume * (1 + amount.val * span.progress e.onset)) events)
  | .diminuendo amount _ =>
    .ok (reweigh
      (fun e => e.volume * Span.nonnegative (1 - amount.val * span.progress e.onset)) events)
  | .slurred fraction => .ok (Event.slur events fraction.val)
  | .pedal => .ok (Event.pedal events)
  | .trill speed => (Event.trillAll events key speed).mapError .tooManyParts
  | .mordent => .ok (events.flatMap fun e => e.mordent (key.upperNeighbour e.pitch) .single)
  | .invertedMordent =>
    .ok (events.flatMap fun e => e.mordent (key.lowerNeighbour e.pitch) .single)
  | .doubleMordent => .ok (events.flatMap fun e => e.mordent (key.upperNeighbour e.pitch) .double)
  | .arpeggioUp => .ok (Event.arpeggio .up events)
  | .arpeggioDown => .ok (Event.arpeggio .down events)
  | .diatonicTranspose degrees =>
    .ok (events.map fun e => { e with pitch := key.diatonicTranspose e.pitch degrees })
  | _ => .ok (interpretCommon events shaping)

/-- Reshape the events of a phrase by one attribute. -/
def interpretPhrase [Limits] (style : Style) (events : List Event) (shaping : Attribute)
    (context : Context)
    (span : Span) : Except PerformFailure (List Event) :=
  match style with
  | fancy => interpretFancy events shaping context.key span
  | _ => .ok (interpretCommon events shaping)

/-! ## Checked construction -/

def staccatoOf (fraction : Rat) : Except Rejection Style :=
  if inside : 0 < fraction ∧ fraction ≤ 1 then .ok (staccato fraction inside)
  else .error .staccatoOutOfRange

def legatoOf (overlap : Rat) : Except Rejection Style :=
  if one_le : 1 ≤ overlap then .ok (legato overlap one_le) else .error .legatoBelowOne

def staccato? [Limits] (fraction : Datum) : Except Rejection Style :=
  fraction.toRat "Staccato fraction" >>= staccatoOf

def legato? [Limits] (overlap : Datum) : Except Rejection Style :=
  overlap.toRat "Legato overlap" >>= legatoOf

/-- The fraction of a staccato style that is given none. -/
def usualFraction : Rat := 1 / 2

/-- The overlap of a legato style that is given none. -/
def usualOverlap : Rat := 5 / 4

end Style

namespace Player

def name : Player → String
  | builtIn style => style.name
  | custom name .. => name

/-- The events that a note produces. -/
def playNote : Player → Note → Context → Except PerformFailure (List Event)
  | builtIn style, n, context => (style.playNote n context).map fun e => [e]
  | custom _ playNote _, n, context => playNote n context

/-- The events of a phrase reshaped by one attribute. -/
def interpretPhrase [Limits] :
    Player → List Event → Attribute → Context → Span → Except PerformFailure (List Event)
  | builtIn style, events, shaping, context, span =>
    style.interpretPhrase events shaping context span
  | custom _ _ interpret, events, shaping, context, span => interpret events shaping context span

end Player

end MusicAlgebra
