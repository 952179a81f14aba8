import DialogueScript.Command.Flags
import DialogueScript.Command.Invocation
import DialogueScript.Command.Log
import DialogueScript.Command.Perform
import DialogueScript.Diagnostic
import DialogueScript.Diagnostic.Report
import DialogueScript.Diagnostic.Summary
import DialogueScript.Document.Content
import DialogueScript.Document.Cursor
import DialogueScript.Document.Mark
import DialogueScript.Document.Quoted
import DialogueScript.Document.Scalar
import DialogueScript.Folder
import DialogueScript.Json
import DialogueScript.Location
import DialogueScript.Main
import DialogueScript.Number.Layout
import DialogueScript.Number.Magnitude
import DialogueScript.Number.Numeral
import DialogueScript.Number.Shortest
import DialogueScript.Plain
import DialogueScript.Run.Arithmetic
import DialogueScript.Run.Evaluate
import DialogueScript.Run.Execute
import DialogueScript.Run.Program
import DialogueScript.Run.Session
import DialogueScript.Run.Stop
import DialogueScript.Scope.Environment
import DialogueScript.Scope.Forest
import DialogueScript.Scope.Frame
import DialogueScript.Scope.History
import DialogueScript.Settings
import DialogueScript.Settings.Layer
import DialogueScript.Settings.Sources
import DialogueScript.Syntax
import DialogueScript.Syntax.Outline
import DialogueScript.Syntax.Parse
import DialogueScript.Text.Blank
import DialogueScript.Text.CaseFold
import DialogueScript.Text.Letters
import DialogueScript.Text.Lines
import DialogueScript.Text.Printable
import DialogueScript.Text.Quoted
import DialogueScript.Text.Ranges
import DialogueScript.Token
import DialogueScript.Token.Scan
import DialogueScript.Token.Stream
import DialogueScript.Value
import DialogueScript.Proofs.Grammar
import DialogueScript.Proofs.ParseSound
import DialogueScript.Proofs.ParseComplete
import DialogueScript.Proofs.ParseLevels
import DialogueScript.Proofs.Parsing
import DialogueScript.Proofs.Executions
import DialogueScript.Proofs.Transactions
import DialogueScript.Proofs.Evaluations
import DialogueScript.Proofs.Operations
import DialogueScript.Proofs.Stops
import DialogueScript.Proofs.Readings
import DialogueScript.Proofs.ParseResults
import DialogueScript.Proofs.Outcomes
import DialogueScript.Proofs.Excerpts
import DialogueScript.Proofs.Quoting
import DialogueScript.Proofs.Blocks
import DialogueScript.Proofs.Tiling
import DialogueScript.Proofs.BitPatterns
import DialogueScript.Proofs.KindBlind
import DialogueScript.Proofs.Lexemes
import DialogueScript.Proofs.Storage
import DialogueScript.Proofs.Written
import DialogueScript.Proofs.Scoping
import DialogueScript.Proofs.Turns
import DialogueScript.Proofs.Lookahead
import DialogueScript.Proofs.SteadyReaders
import DialogueScript.Proofs.Viability
import DialogueScript.Proofs.Cuts
import DialogueScript.Proofs.Extents
import DialogueScript.Proofs.Slices
import DialogueScript.Proofs.Interleaving
import DialogueScript.Proofs.OuterAssignments
import DialogueScript.Proofs.Relocation
import DialogueScript.Proofs.Continuation
import DialogueScript.Proofs.Joining
import DialogueScript.Proofs.Failings
import DialogueScript.Proofs.Origins
import DialogueScript.Proofs.Culprits
import DialogueScript.Proofs.Histories
import DialogueScript.Proofs.MaximalMunch
import DialogueScript.Proofs.Strictness
import DialogueScript.Proofs.FrontEnd
import DialogueScript.Proofs.InputLines
import DialogueScript.Proofs.Moments
import DialogueScript.Proofs.Trails
import DialogueScript.Proofs.Causality
import DialogueScript.Proofs.PlainValues
import DialogueScript.Proofs.CoarsestDecimal
import DialogueScript.Proofs.PlainNumerals
import DialogueScript.Proofs.Equality
import DialogueScript.Proofs.Spacing
import DialogueScript.Proofs.NumericTexts
import DialogueScript.Proofs.Sections
import DialogueScript.Proofs.Acceptance
import DialogueScript.Proofs.Precedence
import DialogueScript.Proofs.WellFormed
import DialogueScript.Proofs.EscapedTexts
import DialogueScript.Proofs.MessageNumbers
import DialogueScript.Proofs.Outlines
import DialogueScript.Proofs.Forests
