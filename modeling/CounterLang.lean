import CounterLang.Text.Basic
import CounterLang.Text.Fields
import CounterLang.Text.Blank
import CounterLang.Text.Printable
import CounterLang.Text.Digit
import CounterLang.Text.Quoted
import CounterLang.Text.Newline
import CounterLang.Text.Utf8
import CounterLang.Text.Encoding
import CounterLang.Entries
import CounterLang.Word
import CounterLang.Program
import CounterLang.Diagnostic
import CounterLang.Fault
import CounterLang.Block
import CounterLang.Store
import CounterLang.Event
import CounterLang.Command
import CounterLang.Machine.Basic
import CounterLang.Machine.Run
import CounterLang.Machine.Scope
import CounterLang.Machine.Effort
import CounterLang.Numeral.Integer
import CounterLang.Numeral.Binary64.Basic
import CounterLang.Numeral.Binary64.Printer
import CounterLang.Numeral.Binary64.Reader
import CounterLang.Json.Basic
import CounterLang.Json.Printer
import CounterLang.Json.Reader
import CounterLang.Json.Conversion
import CounterLang.Settings
import CounterLang.Report
import CounterLang.Worker
import CounterLang.Isolation
import CounterLang.Service.Basic
import CounterLang.Service.Request
import CounterLang.Service.Response
import CounterLang.FileTree
import CounterLang.Loading
import CounterLang.Session
import CounterLang.CommandLine.Arguments
import CounterLang.CommandLine.Invocation
import CounterLang.Main
import CounterLang.Proofs.Transitions
import CounterLang.Proofs.Runs
import CounterLang.Proofs.Budget
import CounterLang.Proofs.Blocks
import CounterLang.Proofs.Nesting
import CounterLang.Proofs.Walks
import CounterLang.Proofs.Termination
import CounterLang.Proofs.Outline
import CounterLang.Proofs.Refinement
import CounterLang.Proofs.Failures
import CounterLang.Proofs.Records
import CounterLang.Proofs.Digits
import CounterLang.Proofs.RoundTrip
import CounterLang.Proofs.Names
import CounterLang.Proofs.Transit
import CounterLang.Proofs.Display
import CounterLang.Proofs.Growth
import CounterLang.Proofs.Executions
import CounterLang.Proofs.Composition
import CounterLang.Proofs.Lines
import CounterLang.Proofs.Variables
import CounterLang.Proofs.Tracing
import CounterLang.Proofs.Sessions
import CounterLang.Proofs.Words
import CounterLang.Proofs.Renaming
import CounterLang.Proofs.Phrases
import CounterLang.Proofs.Alike
import CounterLang.Proofs.Layout
import CounterLang.Proofs.Balance
import CounterLang.Proofs.Inert
import CounterLang.Proofs.Counting
import CounterLang.Proofs.Skeleton
import CounterLang.Proofs.Bystanders
import CounterLang.Proofs.Grammar
import CounterLang.Proofs.Printing
import CounterLang.Proofs.Decoding
import CounterLang.Proofs.Loading
import CounterLang.Proofs.Histories
import CounterLang.Proofs.Snapshots
import CounterLang.Proofs.Ceilings
import CounterLang.Proofs.Answers
