import LiveSheet.Number.Binary
import LiveSheet.Number.Power
import LiveSheet.Number.Decimal
import LiveSheet.Number.Notation
import LiveSheet.Number.Numeral
import LiveSheet.Text.Case
import LiveSheet.Text.Quoted
import LiveSheet.Cell.Cell
import LiveSheet.Cell.Value
import LiveSheet.Formula.Printer
import LiveSheet.Formula.Reference
import LiveSheet.Formula.Offset
import LiveSheet.Formula.Evaluate
import LiveSheet.Formula.Token
import LiveSheet.Formula.Parser
import LiveSheet.Graph.Schedule
import LiveSheet.Sheet.Sheet
import LiveSheet.Errors
import LiveSheet.Data.Schema
import LiveSheet.Data.Row
import LiveSheet.Data.Table
import LiveSheet.Data.Dataset
import LiveSheet.Data.Edit
import LiveSheet.Data.Source
import LiveSheet.Sheet.Pass
import LiveSheet.Filter.Range
import LiveSheet.Config.Config
import LiveSheet.View.Tracker
import LiveSheet.View.Indicator
import LiveSheet.View.Consumer
import LiveSheet.View.Pass
import LiveSheet.View.Errand
import LiveSheet.View.Request
import LiveSheet.View.Script
import LiveSheet.View.Rehearsal
import LiveSheet.View.Owner
import LiveSheet.View.World
import LiveSheet.View.Pumping
import LiveSheet.Proofs.Cell.Alike
import LiveSheet.Proofs.Cell.Column
import LiveSheet.Proofs.Formula.Function
import LiveSheet.Proofs.Formula.Evaluation
import LiveSheet.Proofs.Graph.Links
import LiveSheet.Proofs.Graph.Reached
import LiveSheet.Proofs.Graph.Order
import LiveSheet.Proofs.Graph.Counting
import LiveSheet.Proofs.Graph.Cycle
import LiveSheet.Proofs.Graph.Scheduling
import LiveSheet.Proofs.Graph.Nodes
import LiveSheet.Proofs.Graph.Marks
import LiveSheet.Proofs.Graph.Edges
import LiveSheet.Proofs.Sheet.Entries
import LiveSheet.Proofs.Sheet.Sound
import LiveSheet.Proofs.Sheet.Editing
import LiveSheet.Proofs.Sheet.Refresh
import LiveSheet.Proofs.Sheet.Recalculation
import LiveSheet.Proofs.Sheet.Settled
import LiveSheet.Proofs.Sheet.History
import LiveSheet.Proofs.Sheet.Cycle
import LiveSheet.Proofs.Sheet.Locality
import LiveSheet.Proofs.Data.Revisions
import LiveSheet.Proofs.View.Standing
import LiveSheet.Proofs.View.Following
import LiveSheet.Proofs.View.Coverage
import LiveSheet.Proofs.Sheet.Pass
import LiveSheet.Proofs.View.Computed
import LiveSheet.Proofs.Formula.Grammar
import LiveSheet.Proofs.Formula.Word
import LiveSheet.Proofs.Formula.Climbing
import LiveSheet.Proofs.Formula.Nesting
import LiveSheet.Proofs.Formula.Address
import LiveSheet.Proofs.Formula.Scanning
import LiveSheet.Proofs.Formula.Printing
import LiveSheet.Proofs.Formula.Reprint
import LiveSheet.Proofs.Formula.Moving
import LiveSheet.Proofs.Formula.Mirroring
import LiveSheet.Proofs.Formula.Relocation
import LiveSheet.Proofs.Number.Packing
import LiveSheet.Proofs.Number.Scientific
import LiveSheet.Proofs.Number.Shortest
import LiveSheet.Proofs.Number.Written
import LiveSheet.Proofs.Data.Stamps
import LiveSheet.Proofs.View.Told
import LiveSheet.Proofs.View.Refusals
import LiveSheet.Proofs.View.Columns
import LiveSheet.Proofs.Data.Storing
import LiveSheet.Proofs.Sheet.Repetition
import LiveSheet.Proofs.View.Requests
import LiveSheet.Proofs.View.Answers
import LiveSheet.Proofs.View.Rebuilding
import LiveSheet.Proofs.View.Lull
import LiveSheet.Proofs.View.Resets
import LiveSheet.Proofs.View.Ranges
import LiveSheet.Proofs.View.Closing
import LiveSheet.Proofs.View.Indicator
import LiveSheet.Proofs.Data.Writing
import LiveSheet.Proofs.View.Extending
import LiveSheet.Proofs.View.Pumping
import LiveSheet.Proofs.View.Failing
import LiveSheet.Proofs.Data.Effects
import LiveSheet.Proofs.Data.Taken
import LiveSheet.Proofs.Data.Deposits
import LiveSheet.Proofs.Data.Idle
import LiveSheet.Proofs.Data.Fitting
import LiveSheet.Proofs.Data.Reporting
import LiveSheet.Proofs.Number.Finiteness
import LiveSheet.Proofs.Number.Line
import LiveSheet.Proofs.Formula.Escape
import LiveSheet.Proofs.Formula.Calling
import LiveSheet.Proofs.Formula.Shallow
import LiveSheet.Proofs.Filter.Bins
import LiveSheet.Proofs.Filter.Covering
import LiveSheet.Proofs.View.Arriving
import LiveSheet.Proofs.Sheet.Graph
import LiveSheet.Proofs.Sheet.Leftover
import LiveSheet.Proofs.Cell.Order
import LiveSheet.Proofs.Formula.Comparison
