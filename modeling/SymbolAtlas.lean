import SymbolAtlas.Command.Files
import SymbolAtlas.Command.Log
import SymbolAtlas.Command.Report
import SymbolAtlas.Command.Run
import SymbolAtlas.Debounce.Debouncer
import SymbolAtlas.Debounce.Loop
import SymbolAtlas.Debounce.Timers
import SymbolAtlas.Document
import SymbolAtlas.Entries
import SymbolAtlas.Graph.CallGraph
import SymbolAtlas.Graph.Calls
import SymbolAtlas.History.Change
import SymbolAtlas.History.Log
import SymbolAtlas.Hub.Hub
import SymbolAtlas.Hub.Topic
import SymbolAtlas.Lineage
import SymbolAtlas.Main
import SymbolAtlas.Number.Binary
import SymbolAtlas.Number.Numeral
import SymbolAtlas.Number.Radix
import SymbolAtlas.Outline.Branches
import SymbolAtlas.Outline.Comment
import SymbolAtlas.Outline.Declaration
import SymbolAtlas.Outline.Grammar
import SymbolAtlas.Outline.Punctuation
import SymbolAtlas.Position
import SymbolAtlas.Proofs.Agreement
import SymbolAtlas.Proofs.Announcing
import SymbolAtlas.Proofs.AppendOnly
import SymbolAtlas.Proofs.Appending
import SymbolAtlas.Proofs.AssignedIds
import SymbolAtlas.Proofs.Attribution
import SymbolAtlas.Proofs.Brackets
import SymbolAtlas.Proofs.BranchPoints
import SymbolAtlas.Proofs.Bursts
import SymbolAtlas.Proofs.CallGraph
import SymbolAtlas.Proofs.CallIndex
import SymbolAtlas.Proofs.CallSites
import SymbolAtlas.Proofs.Calls
import SymbolAtlas.Proofs.CarryOver
import SymbolAtlas.Proofs.Change
import SymbolAtlas.Proofs.Chronicle
import SymbolAtlas.Proofs.ConsecutiveSuffixes
import SymbolAtlas.Proofs.DebouncedPasses
import SymbolAtlas.Proofs.DebouncerDeeds
import SymbolAtlas.Proofs.DebouncerEnds
import SymbolAtlas.Proofs.DeclaredLines
import SymbolAtlas.Proofs.Delivery
import SymbolAtlas.Proofs.Derived
import SymbolAtlas.Proofs.DiffCommand
import SymbolAtlas.Proofs.Entries
import SymbolAtlas.Proofs.EventLog
import SymbolAtlas.Proofs.EventLoop
import SymbolAtlas.Proofs.Expansion
import SymbolAtlas.Proofs.FailedPasses
import SymbolAtlas.Proofs.Faultless
import SymbolAtlas.Proofs.FileSpan
import SymbolAtlas.Proofs.FileState
import SymbolAtlas.Proofs.Files
import SymbolAtlas.Proofs.FirstFreeId
import SymbolAtlas.Proofs.Flushing
import SymbolAtlas.Proofs.Fresh
import SymbolAtlas.Proofs.Impact
import SymbolAtlas.Proofs.Innermost
import SymbolAtlas.Proofs.Interference
import SymbolAtlas.Proofs.Leftovers
import SymbolAtlas.Proofs.LineEndings
import SymbolAtlas.Proofs.LineGrammar
import SymbolAtlas.Proofs.Lineage
import SymbolAtlas.Proofs.Lines
import SymbolAtlas.Proofs.LiveTimers
import SymbolAtlas.Proofs.Merging
import SymbolAtlas.Proofs.Moves
import SymbolAtlas.Proofs.OffsetsAndPositions
import SymbolAtlas.Proofs.OpenPeriod
import SymbolAtlas.Proofs.Outcomes
import SymbolAtlas.Proofs.Outline
import SymbolAtlas.Proofs.Passing
import SymbolAtlas.Proofs.PassiveCallbacks
import SymbolAtlas.Proofs.Patch
import SymbolAtlas.Proofs.Places
import SymbolAtlas.Proofs.Quiescence
import SymbolAtlas.Proofs.QuietSchedules
import SymbolAtlas.Proofs.Recomputing
import SymbolAtlas.Proofs.Recording
import SymbolAtlas.Proofs.Renaming
import SymbolAtlas.Proofs.Replay
import SymbolAtlas.Proofs.RetirementMemory
import SymbolAtlas.Proofs.Revision
import SymbolAtlas.Proofs.Scopes
import SymbolAtlas.Proofs.Segments
import SymbolAtlas.Proofs.SettingBounds
import SymbolAtlas.Proofs.Snapshot
import SymbolAtlas.Proofs.SubscriberOrder
import SymbolAtlas.Proofs.Succession
import SymbolAtlas.Proofs.SuffixLedger
import SymbolAtlas.Proofs.SymbolId
import SymbolAtlas.Proofs.SymbolLife
import SymbolAtlas.Proofs.Timers
import SymbolAtlas.Proofs.Unambiguous
import SymbolAtlas.Proofs.Versions
import SymbolAtlas.Proofs.WellFormed
import SymbolAtlas.Report.Box
import SymbolAtlas.Report.Cells
import SymbolAtlas.Report.CharacterName
import SymbolAtlas.Report.Emoji
import SymbolAtlas.Report.Handler
import SymbolAtlas.Report.Handler.Expr
import SymbolAtlas.Report.Handler.Fault
import SymbolAtlas.Report.Handler.Grammar
import SymbolAtlas.Report.Handler.Literal
import SymbolAtlas.Report.Handler.Quoted
import SymbolAtlas.Report.Handler.Reading
import SymbolAtlas.Report.Handler.Rules
import SymbolAtlas.Report.Handler.Token
import SymbolAtlas.Report.Layout
import SymbolAtlas.Report.Marked
import SymbolAtlas.Report.Markup
import SymbolAtlas.Report.Style
import SymbolAtlas.Report.Width
import SymbolAtlas.Session.Pass
import SymbolAtlas.Session.Query
import SymbolAtlas.Session.State
import SymbolAtlas.Session.Step
import SymbolAtlas.Settings.Config
import SymbolAtlas.Settings.Environment
import SymbolAtlas.Settings.Load
import SymbolAtlas.Settings.Moment
import SymbolAtlas.Settings.Validate
import SymbolAtlas.Settings.Value
import SymbolAtlas.Settings.VariableFile
import SymbolAtlas.Settings.Yaml.Build
import SymbolAtlas.Settings.Yaml.Graph
import SymbolAtlas.Settings.Yaml.Name
import SymbolAtlas.Settings.Yaml.Read
import SymbolAtlas.Settings.Yaml.Scalar
import SymbolAtlas.Settings.Yaml.ScalarText
import SymbolAtlas.Settings.Yaml.Scan
import SymbolAtlas.Settings.Yaml.Scanner
import SymbolAtlas.Settings.Yaml.Source
import SymbolAtlas.Settings.Yaml.Tag
import SymbolAtlas.Settings.Yaml.Token
import SymbolAtlas.Symbol
import SymbolAtlas.Text.Base64
import SymbolAtlas.Text.Basic
import SymbolAtlas.Text.Case
import SymbolAtlas.Text.Digit
import SymbolAtlas.Text.Identifier
import SymbolAtlas.Text.Lines
import SymbolAtlas.Text.Lower
import SymbolAtlas.Text.Path
import SymbolAtlas.Text.Printable
import SymbolAtlas.Text.Quoted
import SymbolAtlas.Text.Stream
import SymbolAtlas.Text.Utf8
import SymbolAtlas.Text.Word
