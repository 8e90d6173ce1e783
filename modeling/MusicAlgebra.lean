import MusicAlgebra.Cancellation
import MusicAlgebra.Datum
import MusicAlgebra.Interchange
import MusicAlgebra.Keyed
import MusicAlgebra.Main
import MusicAlgebra.Midi.Failure
import MusicAlgebra.Midi.Halt
import MusicAlgebra.Midi.Message
import MusicAlgebra.Midi.Notice
import MusicAlgebra.Midi.Output
import MusicAlgebra.Midi.PatchMap
import MusicAlgebra.Midi.Playback
import MusicAlgebra.Midi.Queue
import MusicAlgebra.Midi.Rehearsal
import MusicAlgebra.Midi.Renderer
import MusicAlgebra.Midi.Rendering
import MusicAlgebra.Midi.Sounding
import MusicAlgebra.Midi.Stage
import MusicAlgebra.Number.Base
import MusicAlgebra.Number.Binary64
import MusicAlgebra.Number.Decimal
import MusicAlgebra.Number.Fixed
import MusicAlgebra.Number.Literal
import MusicAlgebra.Number.Shortest
import MusicAlgebra.Performance.Context
import MusicAlgebra.Performance.Event
import MusicAlgebra.Performance.Interpreter
import MusicAlgebra.Performance.Ornament
import MusicAlgebra.Performance.Player
import MusicAlgebra.Performance.Registry
import MusicAlgebra.Program
import MusicAlgebra.Rejection
import MusicAlgebra.Score.Amount
import MusicAlgebra.Score.Attribute
import MusicAlgebra.Score.Chain
import MusicAlgebra.Score.Cut
import MusicAlgebra.Score.Demo
import MusicAlgebra.Score.Length
import MusicAlgebra.Score.Line
import MusicAlgebra.Score.Modifier
import MusicAlgebra.Score.Music
import MusicAlgebra.Score.Operand
import MusicAlgebra.Score.Ornament
import MusicAlgebra.Score.PartCount
import MusicAlgebra.Score.Pieces
import MusicAlgebra.Score.Transformation
import MusicAlgebra.Settings.Basic
import MusicAlgebra.Settings.Document
import MusicAlgebra.Settings.Fault
import MusicAlgebra.Settings.Scalar
import MusicAlgebra.Settings.Token
import MusicAlgebra.Settings.Word
import MusicAlgebra.Text.Blank
import MusicAlgebra.Text.CodePoint
import MusicAlgebra.Text.Digit
import MusicAlgebra.Text.Printable
import MusicAlgebra.Text.Quoted
import MusicAlgebra.Theory.BeatRate
import MusicAlgebra.Theory.Instrument
import MusicAlgebra.Theory.Key
import MusicAlgebra.Theory.Loudness
import MusicAlgebra.Theory.Mode
import MusicAlgebra.Theory.NoteValue
import MusicAlgebra.Theory.Pitch
import MusicAlgebra.Theory.Spelling
import MusicAlgebra.Proofs.EventOrder
import MusicAlgebra.Proofs.Outcome
import MusicAlgebra.Proofs.PerformedDuration
import MusicAlgebra.Proofs.PairwiseReading
import MusicAlgebra.Proofs.Rearrangement
import MusicAlgebra.Proofs.Regrouping
import MusicAlgebra.Proofs.PlayableEvents
import MusicAlgebra.Proofs.PlayablePerformance
import MusicAlgebra.Proofs.PerformedPairs
import MusicAlgebra.Proofs.ContainedEvents
import MusicAlgebra.Proofs.ContainedPerformance
import MusicAlgebra.Proofs.SoundingNotes
import MusicAlgebra.Proofs.QueueOrder
import MusicAlgebra.Proofs.AlikeStages
import MusicAlgebra.Proofs.Record
import MusicAlgebra.Proofs.Traces
import MusicAlgebra.Proofs.RenderingCourse
import MusicAlgebra.Proofs.NoHangingNotes
import MusicAlgebra.Proofs.LostReleases
import MusicAlgebra.Proofs.Polyphony
import MusicAlgebra.Proofs.WholePlayback
import MusicAlgebra.Proofs.Retiming
import MusicAlgebra.Proofs.RetimedPerformance
import MusicAlgebra.Proofs.DelayedPerformance
import MusicAlgebra.Proofs.HastenedPerformance
import MusicAlgebra.Proofs.ChannelAssignment
import MusicAlgebra.Proofs.PreparedPerformance
import MusicAlgebra.Proofs.RendererHistory
import MusicAlgebra.Proofs.ScoreContents
import MusicAlgebra.Proofs.Symmetry
import MusicAlgebra.Proofs.EventMaps
import MusicAlgebra.Proofs.Transposition
import MusicAlgebra.Proofs.TransposedPerformance
import MusicAlgebra.Proofs.RewrittenPitches
import MusicAlgebra.Proofs.PerformanceFailures
import MusicAlgebra.Proofs.DistributedModifiers
import MusicAlgebra.Proofs.CutDuration
import MusicAlgebra.Proofs.Comparison
import MusicAlgebra.Proofs.ExchangedPlayers
import MusicAlgebra.Proofs.SwappedVoices
import MusicAlgebra.Proofs.SilentEvents
import MusicAlgebra.Proofs.RepeatedCuts
import MusicAlgebra.Proofs.CutPerformance
import MusicAlgebra.Proofs.InstantEvents
import MusicAlgebra.Proofs.ZeroFree
import MusicAlgebra.Proofs.RemovedZeros
import MusicAlgebra.Proofs.ReversedScores
import MusicAlgebra.Proofs.ReversedPerformance
import MusicAlgebra.Proofs.Lines
import MusicAlgebra.Proofs.InvertedLines
import MusicAlgebra.Proofs.WarpedTime
import MusicAlgebra.Proofs.DiatonicMotion
import MusicAlgebra.Proofs.TiledEvents
import MusicAlgebra.Proofs.RepeatedPerformance
import MusicAlgebra.Proofs.RolledChords
import MusicAlgebra.Proofs.ModifierStacks
import MusicAlgebra.Proofs.WrittenOrnaments
import MusicAlgebra.Proofs.GradualDynamics
import MusicAlgebra.Proofs.AssignmentHistories
import MusicAlgebra.Proofs.ChannelLookup
import MusicAlgebra.Proofs.ClosedOutputs
import MusicAlgebra.Proofs.WakeUps
import MusicAlgebra.Proofs.BlankMargins
import MusicAlgebra.Proofs.Refusals
import MusicAlgebra.Proofs.ScientificNotation
import MusicAlgebra.Proofs.RationalLiterals
import MusicAlgebra.Proofs.CheckedNumbers
import MusicAlgebra.Proofs.UsableSettings
import MusicAlgebra.Proofs.Reductions
import MusicAlgebra.Proofs.MergedStreams
import MusicAlgebra.Proofs.FlattenedChains
