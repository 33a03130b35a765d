import ColumnCalc.Expr.Cursor
import ColumnCalc.Main
import ColumnCalc.Proofs.Derive.Batch
import ColumnCalc.Proofs.Derive.Prefolding
import ColumnCalc.Proofs.Expr.Rendering
import ColumnCalc.Proofs.Number.Decimals
import ColumnCalc.Proofs.Eval.Shape
import ColumnCalc.Proofs.Csv.Cutting
import ColumnCalc.Proofs.Derive.Failure
import ColumnCalc.Proofs.Derive.Uniformity
import ColumnCalc.Proofs.Derive.Layout
import ColumnCalc.Proofs.Csv.Rereading
import ColumnCalc.Proofs.Number.Bits
import ColumnCalc.Proofs.Number.Rereading
import ColumnCalc.Proofs.Derive.Chaining
import ColumnCalc.Proofs.Csv.Decoding
import ColumnCalc.Proofs.Eval.References
import ColumnCalc.Proofs.Expr.Mentions
import ColumnCalc.Proofs.Derive.Generation
import ColumnCalc.Proofs.Command.Evaluation
import ColumnCalc.Proofs.Command.OutputFile
import ColumnCalc.Proofs.Eval.Lookups
import ColumnCalc.Proofs.Eval.NormalForm
import ColumnCalc.Proofs.Metrics.Accepted
import ColumnCalc.Proofs.Metrics.Derived
import ColumnCalc.Proofs.Metrics.Members
import ColumnCalc.Proofs.Derive.Partition
import ColumnCalc.Proofs.Derive.Stopping
import ColumnCalc.Proofs.Rows.RangeText
import ColumnCalc.Proofs.Command.DerivedFile
import ColumnCalc.Proofs.Expr.Faults
import ColumnCalc.Proofs.Expr.Errors
import ColumnCalc.Proofs.Expr.Targets
import ColumnCalc.Proofs.Metrics.Columns
import ColumnCalc.Proofs.Expr.Outlines
import ColumnCalc.Proofs.Expr.Parentheses
import ColumnCalc.Proofs.Number.Rounding
import ColumnCalc.Proofs.Number.Packing
import ColumnCalc.Proofs.Number.Arithmetic
import ColumnCalc.Proofs.Number.Size
import ColumnCalc.Proofs.Expr.Assembly
import ColumnCalc.Proofs.Number.Brevity
import ColumnCalc.Proofs.Expr.Refolding
import ColumnCalc.Proofs.Expr.Cursors
import ColumnCalc.Proofs.Expr.Progress
import ColumnCalc.Proofs.Expr.Recursion
