import LedgerReports.Amount.Basic
import LedgerReports.Amount.Text
import LedgerReports.Calendar.Arithmetic
import LedgerReports.Calendar.Date
import LedgerReports.Calendar.Problem
import LedgerReports.Calendar.Text
import LedgerReports.Deadline
import LedgerReports.Failure
import LedgerReports.Http.Message
import LedgerReports.Http.Router
import LedgerReports.Json.Basic
import LedgerReports.Json.Numeral
import LedgerReports.Json.Parser
import LedgerReports.Json.Printer
import LedgerReports.Ledger.Basic
import LedgerReports.Number.Binary64
import LedgerReports.Number.Decimal
import LedgerReports.Number.Random
import LedgerReports.Pattern.Basic
import LedgerReports.Pattern.Cursor
import LedgerReports.Pattern.Find
import LedgerReports.Pattern.Replace
import LedgerReports.Pattern.Search
import LedgerReports.Proofs.Amount.Canonical
import LedgerReports.Proofs.Amount.Order
import LedgerReports.Proofs.Amount.Text
import LedgerReports.Proofs.Amount.Value
import LedgerReports.Proofs.Calendar.Canonical
import LedgerReports.Proofs.Calendar.Counting
import LedgerReports.Proofs.Calendar.Days
import LedgerReports.Proofs.Calendar.Months
import LedgerReports.Proofs.Calendar.Text
import LedgerReports.Proofs.Http.Sessions
import LedgerReports.Proofs.Http.Stored
import LedgerReports.Proofs.Http.Tenants
import LedgerReports.Proofs.Json.Floats
import LedgerReports.Proofs.Json.RoundTrip
import LedgerReports.Proofs.Pattern.Balanced
import LedgerReports.Proofs.Pattern.Bounds
import LedgerReports.Proofs.Pattern.Buffer
import LedgerReports.Proofs.Pattern.Checked
import LedgerReports.Proofs.Pattern.Depth
import LedgerReports.Proofs.Pattern.Escaped
import LedgerReports.Proofs.Pattern.InPlace
import LedgerReports.Proofs.Pattern.Items
import LedgerReports.Proofs.Pattern.Late
import LedgerReports.Proofs.Pattern.Leftmost
import LedgerReports.Proofs.Pattern.Meter
import LedgerReports.Proofs.Pattern.Openings
import LedgerReports.Proofs.Pattern.PlainErrors
import LedgerReports.Proofs.Pattern.Reading
import LedgerReports.Proofs.Pattern.Restoring
import LedgerReports.Proofs.Pattern.Segments
import LedgerReports.Proofs.Pattern.Sets
import LedgerReports.Proofs.Pattern.Succession
import LedgerReports.Proofs.Pattern.Ways
import LedgerReports.Proofs.Sandbox.Classification
import LedgerReports.Proofs.Script.BalanceLaws
import LedgerReports.Proofs.Script.DateLaws
import LedgerReports.Proofs.Script.DateTexts
import LedgerReports.Proofs.Script.Finding
import LedgerReports.Proofs.Script.HostOperators
import LedgerReports.Proofs.Script.Iterating
import LedgerReports.Proofs.Script.Journal
import LedgerReports.Proofs.Script.LateReplacing
import LedgerReports.Proofs.Script.LateSearches
import LedgerReports.Proofs.Script.Lateness
import LedgerReports.Proofs.Script.Overshoot
import LedgerReports.Proofs.Script.Questions
import LedgerReports.Proofs.Script.Results
import LedgerReports.Proofs.Script.Substitution
import LedgerReports.Proofs.Script.TabulationFailures
import LedgerReports.Proofs.Script.TextFinding
import LedgerReports.Proofs.Script.Timing
import LedgerReports.Proofs.Script.ValueCounts
import LedgerReports.Proofs.Script.Walks
import LedgerReports.Proofs.Service.Atomicity
import LedgerReports.Proofs.Service.Runs
import LedgerReports.Proofs.Service.Sources
import LedgerReports.Proofs.Store.Balances
import LedgerReports.Proofs.Store.DayOrder
import LedgerReports.Proofs.Store.History
import LedgerReports.Proofs.Store.Isolation
import LedgerReports.Proofs.Store.Numbers
import LedgerReports.Proofs.Store.Prices
import LedgerReports.Proofs.Store.References
import LedgerReports.Proofs.Store.Reports
import LedgerReports.Proofs.Store.Transactions
import LedgerReports.Proofs.Store.Writes
import LedgerReports.Proofs.Tabulation.Arena
import LedgerReports.Proofs.Tabulation.Budget
import LedgerReports.Proofs.Tabulation.Desk
import LedgerReports.Proofs.Tabulation.Folding
import LedgerReports.Proofs.Tabulation.Handles
import LedgerReports.Proofs.Tabulation.Plan
import LedgerReports.Proofs.Tabulation.ReadingBack
import LedgerReports.Proofs.Tabulation.Refinement
import LedgerReports.Proofs.Tabulation.Success
import LedgerReports.Proofs.Tabulation.Texts
import LedgerReports.Proofs.Tabulation.Workbench
import LedgerReports.Proofs.Text.Digits
import LedgerReports.Proofs.Text.Lossy
import LedgerReports.Report.Basic
import LedgerReports.Report.Json
import LedgerReports.Sandbox
import LedgerReports.Script.Builtin
import LedgerReports.Script.Chunk
import LedgerReports.Script.Code
import LedgerReports.Script.Compile
import LedgerReports.Script.HostError
import LedgerReports.Script.Library.Arguments
import LedgerReports.Script.Library.Base
import LedgerReports.Script.Library.Conversion
import LedgerReports.Script.Library.Format
import LedgerReports.Script.Library.Host
import LedgerReports.Script.Library.Matching
import LedgerReports.Script.Library.Mathematics
import LedgerReports.Script.Library.Object
import LedgerReports.Script.Library.Packages
import LedgerReports.Script.Library.Packing
import LedgerReports.Script.Library.Sequences
import LedgerReports.Script.Library.Text
import LedgerReports.Script.Machine
import LedgerReports.Script.Memory
import LedgerReports.Script.Number
import LedgerReports.Script.Operation
import LedgerReports.Script.Run
import LedgerReports.Script.Start
import LedgerReports.Script.Syntax
import LedgerReports.Script.Table
import LedgerReports.Script.Thread
import LedgerReports.Script.Token
import LedgerReports.Script.Value
import LedgerReports.Service
import LedgerReports.Service.Operation
import LedgerReports.Settings.Basic
import LedgerReports.Settings.Document
import LedgerReports.Store.Basic
import LedgerReports.Store.Connection
import LedgerReports.Store.Query
import LedgerReports.Store.Repair
import LedgerReports.Store.Request
import LedgerReports.Tabulation.Basic
import LedgerReports.Tabulation.Draft
import LedgerReports.Tabulation.Json
import LedgerReports.Text.Blank
import LedgerReports.Text.Bytes
import LedgerReports.Text.Digits
import LedgerReports.Text.Utf8
