/-!
# Timed events

An event is one sounding note with an absolute onset.  Streams of events are merged by repeatedly
taking the earliest head, the earlier stream winning a tie, and sorted stably by onset.
-/

namespace MusicAlgebra

/-- A sounding note.  Onset and duration are in whole notes, pitch and volume in MIDI numbers. -/
structure Event where
  onset : Rat
  duration : Rat
  pitch : Int
  volume : Int
  instrument : String
  deriving DecidableEq, Repr

namespace Event

/-- The moment at which an event stops sounding. -/
def finish (e : Event) : Rat := e.onset + e.duration

/-- Whether the first event may stand before the second one in order of onset. -/
def noLater (first second : Event) : Bool := decide (first.onset ≤ second.onset)

/-- Merge streams of events.  Of the heads of all streams the earliest comes first, and of equally
early ones that of the earliest stream.  If every stream is sorted, so is the result. -/
def merge (streams : List (List Event)) : List Event :=
  streams.foldr (fun stream merged => stream.merge merged noLater) []

/-- Sort events by onset; events with equal onsets keep their order. -/
def sort (events : List Event) : List Event := events.mergeSort noLater

@[simp] theorem merge_nil : merge [] = [] := rfl

@[simp] theorem merge_cons (stream : List Event) (streams : List (List Event)) :
    merge (stream :: streams) = stream.merge (merge streams) noLater := rfl

/-- Merging loses and repeats no event. -/
theorem merge_perm (streams : List (List Event)) : (merge streams).Perm streams.flatten := by
  induction streams with
  | nil => exact .refl _
  | cons stream streams ih =>
    rw [merge_cons, List.flatten_cons]
    have merged : (stream.merge (merge streams) noLater).Perm (stream ++ merge streams) :=
      List.merge_perm_append _
    exact merged.trans (ih.append_left stream)

end Event

/-- What performing music yields: its events, and the time at which a following passage would start.
The last events may ring on past that time or end before it. -/
structure Performance where
  events : List Event
  duration : Rat
  deriving DecidableEq, Repr

namespace Performance

/-- The later of two moments. -/
def later (a b : Rat) : Rat := if a < b then b else a

/-- The moment at which the last event stops sounding, zero if there are no events. -/
def endTime (p : Performance) : Rat :=
  match p.events with
  | [] => 0
  | first :: others => others.foldl (fun latest e => later latest e.finish) first.finish

/-- The instruments in the order of their first appearance. -/
def instruments (p : Performance) : List String := (p.events.map (·.instrument)).eraseDups

end Performance

end MusicAlgebra
