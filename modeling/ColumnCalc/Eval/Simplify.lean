import ColumnCalc.Eval.Context
import ColumnCalc.Eval.Symbols
import ColumnCalc.Expr.Basic

/-!
# Simplifying and evaluating

`Expr.simplify` puts in what a context knows and computes every operation on numbers that arises;
what the context does not know stays in the tree. `Expr.evaluate` does so for a whole row and
demands a number.

An operator is looked up before its operands are simplified, a function only when its argument has
become a number.
-/

namespace ColumnCalc

/-- The table that a name is missing from. -/
inductive SymbolKind where
  | operator
  | function
  | constant
  deriving DecidableEq, Repr

inductive EvalError where
  | columnNotFound (name : String)
  | unknownSymbol (kind : SymbolKind) (name : String)
  /-- A row left something unknown in the tree. -/
  | unresolved (left : Expr)
  deriving DecidableEq

namespace SymbolKind

def name : SymbolKind → String
  | operator => "operator"
  | function => "function"
  | constant => "constant"

end SymbolKind

namespace EvalError

def message : EvalError → String
  | columnNotFound name => "unable to resolve column with name \"" ++ name ++ "\""
  | unknownSymbol kind name => "unknown " ++ kind.name ++ " \"" ++ name ++ "\""
  | unresolved left => "expression could not be resolved to a number: " ++ left.text

end EvalError

namespace Expr

open Symbols

/-- A call of a function on a simplified argument. -/
def applyCall (function : String) (argument : Expr) : Except EvalError Expr :=
  match argument with
  | literal v =>
    match function? function with
    | some f => .ok (literal (f v))
    | none => .error (.unknownSymbol .function function)
  | argument => .ok (call function argument)

/-- An operation on simplified operands. -/
def applyBinary (f : Float → Float → Float) (left : Expr) (op : Char) (right : Expr) : Expr :=
  match left, right with
  | literal l, literal r => literal (f l r)
  | left, right => binary left op right

/-- The expression under what the context knows. -/
def simplify (known : Context) : Expr → Except EvalError Expr
  | literal v => .ok (literal v)
  | column name =>
    match known.values with
    | none => .ok (column name)
    | some values =>
      match values.get? name with
      | some v => .ok (literal v)
      | none => .error (.columnNotFound name)
  | row =>
    match known.index with
    | none => .ok row
    | some index => .ok (literal (Float.ofNat index))
  | constant name =>
    match constant? name with
    | some v => .ok (literal v)
    | none => .error (.unknownSymbol .constant name)
  | call function argument => do
    let argument ← argument.simplify known
    applyCall function argument
  | binary left op right =>
    match operator? op with
    | none => .error (.unknownSymbol .operator op.toString)
    | some f => do
      let left ← left.simplify known
      let right ← right.simplify known
      pure (applyBinary f left op right)

/-- The number of an expression in a row. -/
def evaluate (index : Nat) (values : RowValues) (e : Expr) : Except EvalError Float := do
  let simple ← e.simplify (.full index values)
  match simple with
  | literal v => .ok v
  | left => .error (.unresolved left)

end Expr

namespace Formula

/-- The formula with its value simplified. -/
def simplify (known : Context) (f : Formula) : Except EvalError Formula := do
  let value ← f.value.simplify known
  pure ⟨f.target, value⟩

end Formula

end ColumnCalc
