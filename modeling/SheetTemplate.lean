import SheetTemplate.Area.Basic
import SheetTemplate.Area.Build
import SheetTemplate.Area.Replay
import SheetTemplate.Check
import SheetTemplate.Collection.Items
import SheetTemplate.Collection.Order
import SheetTemplate.Command.Basic
import SheetTemplate.Command.Each
import SheetTemplate.Command.Run
import SheetTemplate.CommandLine.Arguments
import SheetTemplate.CommandLine.Run
import SheetTemplate.Context
import SheetTemplate.Data.Csv
import SheetTemplate.Data.Json
import SheetTemplate.Data.JsonText
import SheetTemplate.Data.Member
import SheetTemplate.Data.Source
import SheetTemplate.Data.Table
import SheetTemplate.Data.Yaml.Block
import SheetTemplate.Data.Yaml.Inline
import SheetTemplate.Data.Yaml.Scalar
import SheetTemplate.Directive.Attributes
import SheetTemplate.Directive.Basic
import SheetTemplate.Expr.Access
import SheetTemplate.Expr.Arith
import SheetTemplate.Expr.Basic
import SheetTemplate.Expr.Compile
import SheetTemplate.Expr.Eval
import SheetTemplate.Expr.Evaluator
import SheetTemplate.Expr.Filter
import SheetTemplate.Expr.Format
import SheetTemplate.Expr.Function
import SheetTemplate.Expr.Method
import SheetTemplate.Expr.Monad
import SheetTemplate.Expr.Parser
import SheetTemplate.Expr.Predicate
import SheetTemplate.Expr.Segment
import SheetTemplate.Expr.Token
import SheetTemplate.Failure
import SheetTemplate.Fault
import SheetTemplate.Fill.Copy
import SheetTemplate.Fill.Host
import SheetTemplate.Fill.Run
import SheetTemplate.Fill.Sheets
import SheetTemplate.Fill.State
import SheetTemplate.Fill.Write
import SheetTemplate.Formula.Reference
import SheetTemplate.Formula.Relocate
import SheetTemplate.Formula.Strategy
import SheetTemplate.Main
import SheetTemplate.Names
import SheetTemplate.Number.Arith
import SheetTemplate.Number.Binary
import SheetTemplate.Number.Decimal
import SheetTemplate.Number.Order
import SheetTemplate.Number.Read
import SheetTemplate.Number.Shortest
import SheetTemplate.Number.Shown
import SheetTemplate.Outline
import SheetTemplate.Ref.Area
import SheetTemplate.Ref.Cell
import SheetTemplate.Ref.Column
import SheetTemplate.Ref.Order
import SheetTemplate.Ref.Sheet
import SheetTemplate.Settings
import SheetTemplate.Sorting
import SheetTemplate.Template.Snapshot
import SheetTemplate.Text.Blank
import SheetTemplate.Text.Casing
import SheetTemplate.Text.Digit
import SheetTemplate.Text.Identifier
import SheetTemplate.Text.Letter
import SheetTemplate.Text.Printable
import SheetTemplate.Text.Quoted
import SheetTemplate.Text.Ranges
import SheetTemplate.Text.Scan
import SheetTemplate.Value.Basic
import SheetTemplate.Value.Calendar
import SheetTemplate.Value.Column
import SheetTemplate.Value.Compare
import SheetTemplate.Value.Shown
import SheetTemplate.Value.Stored
import SheetTemplate.Workbook.Basic
import SheetTemplate.Workbook.Cell
import SheetTemplate.Workbook.Listing
import SheetTemplate.Workbook.Sheet
import SheetTemplate.Proofs.Area.Contained
import SheetTemplate.Proofs.Area.Course
import SheetTemplate.Proofs.Fill.Repeating
import SheetTemplate.Proofs.Fill.Unmoved
import SheetTemplate.Proofs.Area.Steps
import SheetTemplate.Proofs.Area.Scoping
import SheetTemplate.Proofs.Formula.Overruling
import SheetTemplate.Proofs.Area.Twins
import SheetTemplate.Proofs.Area.Translation
import SheetTemplate.Proofs.Workbook.Faces
import SheetTemplate.Proofs.Fill.Framing
import SheetTemplate.Proofs.Fill.Reshaping
import SheetTemplate.Proofs.Fill.Extending
import SheetTemplate.Proofs.Command.Asking
import SheetTemplate.Proofs.Fill.Renewing
import SheetTemplate.Proofs.Area.Abreast
import SheetTemplate.Proofs.Fill.Refilling
import SheetTemplate.Proofs.Formula.Replacing
import SheetTemplate.Proofs.Area.Accounting
import SheetTemplate.Proofs.Fill.Bystanders
import SheetTemplate.Proofs.Fill.Lineage
import SheetTemplate.Proofs.Fill.Checked
import SheetTemplate.Proofs.Command.Sheets
import SheetTemplate.Proofs.Formula.Denoting
import SheetTemplate.Proofs.Formula.Bounding
import SheetTemplate.Proofs.Area.Appearing
import SheetTemplate.Proofs.Area.Looped
import SheetTemplate.Proofs.Formula.Lining
import SheetTemplate.Proofs.Fill.Iterating
import SheetTemplate.Proofs.Area.Parallel
import SheetTemplate.Proofs.Area.Seating
import SheetTemplate.Proofs.Fill.Beside
import SheetTemplate.Proofs.Fill.Permuting
import SheetTemplate.Proofs.Area.Layout
import SheetTemplate.Proofs.Area.Tightest
import SheetTemplate.Proofs.Area.Sizing
import SheetTemplate.Proofs.Area.Footprint
import SheetTemplate.Proofs.Area.Nesting
import SheetTemplate.Proofs.Collection.Stable
import SheetTemplate.Proofs.Collection.Ranking
import SheetTemplate.Proofs.Collection.Grouping
import SheetTemplate.Proofs.Collection.Dating
import SheetTemplate.Proofs.Collection.Columns
import SheetTemplate.Proofs.Command.Choosing
import SheetTemplate.Proofs.Area.Rearranging
import SheetTemplate.Proofs.Command.Merging
import SheetTemplate.Proofs.Fill.Erasing
import SheetTemplate.Proofs.Formula.Composing
import SheetTemplate.Proofs.Area.Locating
import SheetTemplate.Proofs.Ref.Reading
import SheetTemplate.Proofs.Directive.Listing
import SheetTemplate.Proofs.Expr.Recognizing
import SheetTemplate.Proofs.Workbook.Fitting
import SheetTemplate.Proofs.Workbook.Active
import SheetTemplate.Proofs.Value.Storing
import SheetTemplate.Proofs.Expr.Splitting
import SheetTemplate.Proofs.Workbook.Numbering
import SheetTemplate.Proofs.Fill.Sweeping
