import ColumnCalc.Csv.Table
import ColumnCalc.Rows.Range

/-!
# Metrics of columns

The least and greatest number of each column, their sum and their count. Only whole records count: a
record with fewer cells than headers, or with a cell under a header that is no number or truth word,
is left out for every column.
-/

namespace ColumnCalc

structure ColumnMetrics where
  name : String
  least : Float
  greatest : Float
  sum : Float
  count : Nat
  deriving DecidableEq

namespace ColumnMetrics

/-- The lesser of two numbers; `nan` counts only beside itself. -/
def lesser (a b : Float) : Float :=
  if a.isNaN then b else if b.isNaN then a else if b < a then b else a

/-- The greater of two numbers; `nan` counts only beside itself. -/
def greater (a b : Float) : Float :=
  if a.isNaN then b else if b.isNaN then a else if a < b then b else a

/-- A column without numbers. -/
def start (name : String) : ColumnMetrics :=
  ⟨name, 0.0 / 0.0, 0.0 / 0.0, 0.0, 0⟩

def add (m : ColumnMetrics) (v : Float) : ColumnMetrics :=
  ⟨m.name, lesser m.least v, greater m.greatest v, m.sum + v, m.count + 1⟩

/-- The arithmetic mean, `nan` for a column without numbers. -/
def average (m : ColumnMetrics) : Float :=
  if m.count = 0 then 0.0 / 0.0 else m.sum / Float.ofNat m.count

end ColumnMetrics

namespace Metrics

/-- The numbers of a record under `width` headers, if it has a number under each. -/
def accepted? (width : Nat) (cells : List String) : Option (List Float) :=
  if cells.length < width then none else (cells.take width).mapM Cell.numberOrTruth?

/-- The metrics of each column of a table, in the order of the headers. -/
def compute (range : RowRange) (input : Bytes) : Except Csv.Error (List ColumnMetrics) := do
  let table := Csv.Table.ofBytes input
  let headers ← table.headers
  let selection := range.select table.records
  match selection.failure with
  | some error => .error error
  | none =>
    let rows := selection.rows.filterMap fun (_, cells) => accepted? headers.length cells
    pure (rows.foldl (List.zipWith .add) (headers.map .start))

end Metrics

end ColumnCalc
