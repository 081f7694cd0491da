import Stopwatch.Bench.Runner
import Stopwatch.Bench.Selection
import Stopwatch.Bench.Table
import Stopwatch.Bus.Address
import Stopwatch.Bus.Connection
import Stopwatch.CommandLine.Order
import Stopwatch.Executor.Script
import Stopwatch.Host.Facility
import Stopwatch.Kernel.Basic
import Stopwatch.Main
import Stopwatch.Settings.Load
import Stopwatch.Worker.Pool
import Stopwatch.Proofs.Trace
import Stopwatch.Proofs.Measurement
import Stopwatch.Proofs.Accounting
import Stopwatch.Proofs.Pool
import Stopwatch.Proofs.Interleaving
import Stopwatch.Proofs.Boxes
import Stopwatch.InProcess.Shared
import Stopwatch.Proofs.Starts
import Stopwatch.Proofs.Sequential
import Stopwatch.Proofs.Shutdown
import Stopwatch.Proofs.Publishing
import Stopwatch.Proofs.Requests
import Stopwatch.Proofs.Verdict
import Stopwatch.Proofs.Utf8
import Stopwatch.Proofs.Escapes
import Stopwatch.Proofs.Numerals
import Stopwatch.Proofs.Literals
import Stopwatch.Proofs.Values
import Stopwatch.Proofs.Messages
import Stopwatch.Proofs.Submission
import Stopwatch.Proofs.Rounding
import Stopwatch.Proofs.Doubles
import Stopwatch.Proofs.Conversion
import Stopwatch.Proofs.ShortestDigits
import Stopwatch.Proofs.FloatLiterals
import Stopwatch.Proofs.Reports
import Stopwatch.Proofs.Independence
import Stopwatch.Proofs.Facility
import Stopwatch.Proofs.MetaLines
import Stopwatch.Proofs.SourceTable
import Stopwatch.Proofs.FlagKinds
import Stopwatch.Proofs.SettingFields
import Stopwatch.Proofs.Library
import Stopwatch.Proofs.Precedence
import Stopwatch.Proofs.Grammar
import Stopwatch.Proofs.Drafts
import Stopwatch.Proofs.Deliveries
import Stopwatch.Proofs.Visible
import Stopwatch.Proofs.MetaSheets
import Stopwatch.Proofs.Outcome
import Stopwatch.Proofs.SandboxVerdict
import Stopwatch.Proofs.FailedRuns
import Stopwatch.Proofs.BoxNumbers
import Stopwatch.Proofs.Fibonacci
import Stopwatch.Proofs.OneStray
import Stopwatch.Proofs.RunWords
import Stopwatch.Proofs.KernelLines
import Stopwatch.Proofs.Trimming
import Stopwatch.Proofs.Outputs
import Stopwatch.Proofs.Choosing
import Stopwatch.Proofs.Places
import Stopwatch.Proofs.ReportText
import Stopwatch.Proofs.FixedPlaces
import Stopwatch.Proofs.SampleRange
import Stopwatch.Proofs.FiniteTimes
import Stopwatch.Proofs.Courses
import Stopwatch.Proofs.MemoryRace
import Stopwatch.Proofs.SkippedTimes
