import ColumnCalc.Csv.Table
import ColumnCalc.Eval.Simplify
import ColumnCalc.Expr.Parser

/-!
# Derived columns

A deriver holds the columns that a list of sources defines. A source that cannot be read, or that
names no column, is dropped and remembered. What a column's expression has that depends on no row is
computed once, when the deriver is made; if that fails, no row could have a value and there is no
deriver.
-/

namespace ColumnCalc

inductive DropReason where
  | unreadable (error : ParseError)
  | missingTarget
  deriving DecidableEq, Repr

namespace DropReason

def message : DropReason → String
  | unreadable error => "failed to parse: " ++ error.message
  | missingTarget => "no target column name (expected `name = expression`)"

end DropReason

/-- A source that defines no column. -/
structure DroppedSource where
  source : String
  reason : DropReason
  deriving DecidableEq, Repr

structure DerivedColumn where
  name : String
  source : String
  /-- The source's expression, simplified without a row. -/
  expr : Expr
  deriving DecidableEq

inductive DeriveError where
  /-- The source has no value in any row. -/
  | source (source : String) (error : EvalError)
  | row (index : Nat) (column : String) (error : EvalError)
  | csv (error : Csv.Error)
  deriving DecidableEq

namespace DeriveError

def message : DeriveError → String
  | source text error =>
    "failed to evaluate column expression \"" ++ text ++ "\": " ++ error.message
  | row index column error =>
    "row " ++ toString index ++ ", column \"" ++ column ++ "\": " ++ error.message
  | csv error => "CSV error: " ++ error.message

end DeriveError

/-- Columns in the order of their definitions, and the sources that define none. -/
structure Deriver where
  columns : List DerivedColumn
  dropped : List DroppedSource
  deriving DecidableEq

namespace Deriver

def empty : Deriver :=
  ⟨[], []⟩

/-- The deriver of one source. -/
def ofSource (source : String) : Except DeriveError Deriver :=
  match Formula.parse source with
  | .error error => .ok ⟨[], [⟨source, .unreadable error⟩]⟩
  | .ok ⟨none, _⟩ => .ok ⟨[], [⟨source, .missingTarget⟩]⟩
  | .ok ⟨some name, value⟩ =>
    match value.simplify .empty with
    | .error error => .error (.source source error)
    | .ok expr => .ok ⟨[⟨name, source, expr⟩], []⟩

/-- The columns of both, one list behind the other. -/
def append (a b : Deriver) : Deriver :=
  ⟨a.columns ++ b.columns, a.dropped ++ b.dropped⟩

/-- The deriver of a list of sources; the first source without a value is the error. -/
def ofSources : List String → Except DeriveError Deriver
  | [] => .ok empty
  | source :: others => do
    let first ← ofSource source
    let rest ← ofSources others
    pure (first.append rest)

def names (d : Deriver) : List String :=
  d.columns.map (·.name)

/-- The values of all columns in a row; the first column without one is the error. -/
def values (d : Deriver) (index : Nat) (row : RowValues) : Except DeriveError (List Float) :=
  d.columns.mapM fun column =>
    match column.expr.evaluate index row with
    | .ok v => .ok v
    | .error error => .error (.row index column.name error)

end Deriver

end ColumnCalc
