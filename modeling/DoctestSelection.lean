import DoctestSelection.Text.Blank
import DoctestSelection.Text.Decimal
import DoctestSelection.Range.Basic
import DoctestSelection.Range.Printer
import DoctestSelection.Range.Parser
import DoctestSelection.Range.Runs
import DoctestSelection.Pattern.Basic
import DoctestSelection.Pattern.Regex
import DoctestSelection.Filter.Error
import DoctestSelection.Filter.Basic
import DoctestSelection.Filter.Parser
import DoctestSelection.Test.Basic
import DoctestSelection.Test.Json
import DoctestSelection.Selection.Basic
import DoctestSelection.Selection.Summary
import DoctestSelection.Json.Number
import DoctestSelection.Json.Value
import DoctestSelection.Json.Reader
import DoctestSelection.Json.Printer
import DoctestSelection.Finder.Basic
import DoctestSelection.Finder.ModuleTable
import DoctestSelection.Document
import DoctestSelection.Failure
import DoctestSelection.Run
import DoctestSelection.Settings
import DoctestSelection.Report
import DoctestSelection.TestTree
import DoctestSelection.Command
import DoctestSelection.CommandLine
import DoctestSelection.Output
import DoctestSelection.Program
import DoctestSelection.Main
import DoctestSelection.Proofs.Pattern.Cut
import DoctestSelection.Proofs.Selection.Composition
import DoctestSelection.Proofs.Filter.Grammar
import DoctestSelection.Proofs.Range.RoundTrip
import DoctestSelection.Proofs.Selection.Union
import DoctestSelection.Proofs.Filter.Normalized
import DoctestSelection.Proofs.Run.Selected
import DoctestSelection.Proofs.Run.Session
import DoctestSelection.Proofs.Run.Filtered
import DoctestSelection.Proofs.Settings.Merging
import DoctestSelection.Proofs.Settings.FilterFlags
import DoctestSelection.Proofs.Document.Shape
import DoctestSelection.Proofs.Json.Literals
import DoctestSelection.Proofs.Json.RoundTrip
import DoctestSelection.Proofs.Document.RoundTrip
import DoctestSelection.Proofs.Range.Runs
import DoctestSelection.Proofs.Selection.Printed
import DoctestSelection.Proofs.Document.Complete
import DoctestSelection.Proofs.Command.Written
import DoctestSelection.Proofs.Command.Agreement
import DoctestSelection.Proofs.Command.Stages
import DoctestSelection.Proofs.Program.ExitStatus
import DoctestSelection.Proofs.Range.Spelling
import DoctestSelection.Proofs.Range.Union
import DoctestSelection.Proofs.Range.Blamed
import DoctestSelection.Proofs.Selection.Accounting
import DoctestSelection.Proofs.Range.Shortest
import DoctestSelection.Proofs.Text.ByteOrder
import DoctestSelection.Proofs.Finder.History
import DoctestSelection.Proofs.Settings.Layering
