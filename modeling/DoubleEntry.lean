import DoubleEntry.Main
import DoubleEntry.Proofs.Decimal.RunningSum
import DoubleEntry.Proofs.Balance.Posting
import DoubleEntry.Proofs.Balance.Exactness
import DoubleEntry.Proofs.Balancing.Totals
import DoubleEntry.Proofs.Balancing.Acceptance
import DoubleEntry.Proofs.Balancing.Completion
import DoubleEntry.Proofs.Query.Grammar
import DoubleEntry.Proofs.Query.Spelling
import DoubleEntry.Proofs.Query.Shunting
import DoubleEntry.Proofs.Query.Selection
import DoubleEntry.Proofs.Report.Agreement
import DoubleEntry.Proofs.Report.ZeroTotals
import DoubleEntry.Proofs.Report.Printing
import DoubleEntry.Proofs.AccountTree.Posting
import DoubleEntry.Proofs.AccountTree.Rollup
import DoubleEntry.Proofs.AccountTree.Rows
import DoubleEntry.Proofs.AccountTree.Bounds
import DoubleEntry.Proofs.AccountTree.Figures
import DoubleEntry.Proofs.AccountTree.Walk
import DoubleEntry.Proofs.AccountTree.Preorder
import DoubleEntry.Proofs.Report.Bookings
import DoubleEntry.Proofs.Report.Reordering
import DoubleEntry.Proofs.Report.Filtering
import DoubleEntry.Proofs.Source.Splicing
import DoubleEntry.Proofs.Source.Ending
import DoubleEntry.Proofs.Record.Streaming
import DoubleEntry.Proofs.Record.LineGroup
import DoubleEntry.Proofs.Record.Grouping
import DoubleEntry.Proofs.Query.Meaning
import DoubleEntry.Proofs.Query.Operands
import DoubleEntry.Proofs.Query.Placement
import DoubleEntry.Proofs.Query.Printing
import DoubleEntry.Proofs.Text.Trimming
import DoubleEntry.Proofs.Calendar
import DoubleEntry.Proofs.Amount.Numeral
import DoubleEntry.Proofs.Amount.Grammar
import DoubleEntry.Proofs.Amount.Printing
import DoubleEntry.Proofs.Ledger.Loading
import DoubleEntry.Proofs.Source.Joining
import DoubleEntry.Proofs.Record.Joining
import DoubleEntry.Proofs.Amount.RoundTrip
import DoubleEntry.Proofs.Query.Encoding
import DoubleEntry.Proofs.Query.Conservation
import DoubleEntry.Proofs.Query.BooleanLaws
import DoubleEntry.Proofs.Balancing.Rearranging
import DoubleEntry.Proofs.Source.Origins
import DoubleEntry.Proofs.Record.Spans
import DoubleEntry.Proofs.Report.RunningTotals
import DoubleEntry.Proofs.Amount.SignedZero
import DoubleEntry.Proofs.Record.TrailingComment
import DoubleEntry.Proofs.Source.Relocation
import DoubleEntry.Proofs.Balance.Atomicity
import DoubleEntry.Proofs.Journal.StableOrder
import DoubleEntry.Proofs.Journal.Indexes
import DoubleEntry.Proofs.Report.Columns
