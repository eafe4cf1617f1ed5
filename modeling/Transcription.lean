import Transcription.Replacement
import Transcription.Rulebook
import Transcription.Text.Blank
import Transcription.Json.Basic
import Transcription.Json.Document
import Transcription.Json.Record
import Transcription.Json.Writer
import Transcription.Engine
import Transcription.Passage
import Transcription.Engine.Persisted
import Transcription.Address
import Transcription.Address.Reader
import Transcription.Address.Writer
import Transcription.Country
import Transcription.CurrencyTable
import Transcription.CurrencyTable.Builtin
import Transcription.GeoTable
import Transcription.Text.Invisible
import Transcription.Text.Quoted
import Transcription.FileTree
import Transcription.CurrencyTable.File
import Transcription.GeoTable.File
import Transcription.Settings
import Transcription.Settings.File
import Transcription.Online
import Transcription.CommandLine.Options
import Transcription.CommandLine.Host
import Transcription.CommandLine.Job
import Transcription.CommandLine.Run
import Transcription.Main
import Transcription.Proofs.Literal.Run
import Transcription.Proofs.Literal.Mask
import Transcription.Proofs.Rewording
import Transcription.Proofs.Text.Walk
import Transcription.Proofs.WholeWord
import Transcription.Proofs.Rulebook.Spelling
import Transcription.Proofs.AtOnce
import Transcription.Proofs.Engine.Hits
import Transcription.Proofs.Rulebook.Order
import Transcription.Proofs.Engine.Concatenation
import Transcription.Proofs.Engine.Literals
import Transcription.Proofs.Literal.Unescaped
import Transcription.Proofs.Passage
import Transcription.Proofs.Json.Document
import Transcription.Proofs.Settings.Field
import Transcription.Proofs.Json.Numeral
import Transcription.Proofs.Json.StringToken
import Transcription.Proofs.Json.Tokens
import Transcription.Proofs.Json.RoundTrip
import Transcription.Proofs.Settings.Recovery
import Transcription.Proofs.FileTree.Change
import Transcription.Proofs.Path.Neighbour
import Transcription.Proofs.FileTree.Steps
import Transcription.Proofs.FileTree.Replacement
import Transcription.Proofs.Settings.Save
import Transcription.Proofs.Settings.Interruption
import Transcription.Proofs.Address.Parts
import Transcription.Proofs.Address.RoundTrip
import Transcription.Proofs.Json.Persistence
import Transcription.Proofs.Country
import Transcription.Proofs.Persistence
import Transcription.Proofs.Resolution
import Transcription.Proofs.Online
import Transcription.Proofs.CommandLine.Watched
import Transcription.Proofs.CommandLine.Contract
import Transcription.Proofs.Text.Measure
import Transcription.Proofs.Engine.Change
import Transcription.Proofs.Text.Choice
import Transcription.Proofs.Text.Runs
import Transcription.Proofs.Engine.Accounting
import Transcription.Proofs.FileTree.Failure
import Transcription.Proofs.Settings.FailedSave
import Transcription.Proofs.CommandLine.Flag
import Transcription.Proofs.CommandLine.Agreement
import Transcription.Proofs.Text.Offset
import Transcription.Proofs.Text.Splice
import Transcription.Proofs.Replacement.Candidate
import Transcription.Proofs.Literal.Policies
import Transcription.Proofs.Literal.Structural
import Transcription.Proofs.Engine.Policies
import Transcription.Proofs.Engine.Repetition
import Transcription.Proofs.Address.Order
import Transcription.Proofs.GeoTable
import Transcription.Proofs.Literal.Neutral
import Transcription.Proofs.Literal.Spans
import Transcription.Proofs.Placement.Repetition
import Transcription.Proofs.Replacement.Literals
import Transcription.Proofs.Replacement.Repetition
import Transcription.Proofs.Text.Boundary
import Transcription.Proofs.Replacement.Offsets
import Transcription.Proofs.Literal.Search
import Transcription.Proofs.Literal.WellFormed
import Transcription.Proofs.Replacement.Counting
