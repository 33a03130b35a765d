import ColumnCalc.Number.Notation

/-!
# Column expressions

An expression computes a number from the row it stands in: from literals, the row's cells, the
row's index, named constants, functions of one argument and binary operators. A formula is an
expression with the name of the column that it fills, if it has one.
-/

namespace ColumnCalc

/-- Precedence of a binary operator, loosest first. Every level is left-associative. -/
inductive Level where
  | additive
  | multiplicative
  | exponential
  deriving DecidableEq, Repr

namespace Level

def all : List Level :=
  [additive, multiplicative, exponential]

/-- The operator characters of a level. -/
def operators : Level → List Char
  | additive => ['+', '-']
  | multiplicative => ['*', '/']
  | exponential => ['%', '^']

/-- The level of the operands of a level, none if they are no binary expressions. -/
def tighter : Level → Option Level
  | additive => some multiplicative
  | multiplicative => some exponential
  | exponential => none

/-- Position in the order of the levels, loosest first. -/
def rank : Level → Nat
  | additive => 0
  | multiplicative => 1
  | exponential => 2

/-- The level of an operator character, none if the language has no such operator. -/
def of? (op : Char) : Option Level :=
  all.find? fun level => op ∈ level.operators

theorem of?_eq_some_iff {op : Char} {level : Level} :
    of? op = some level ↔ op ∈ level.operators := by
  cases level <;> simp only [of?, all, operators, List.find?, List.mem_cons, List.not_mem_nil] <;>
    grind

end Level

inductive Expr where
  | literal (value : Float)
  /-- The cell of the row in the named column. -/
  | column (name : String)
  /-- The index of the row. -/
  | row
  | constant (name : String)
  | call (function : String) (argument : Expr)
  | binary (left : Expr) (op : Char) (right : Expr)
  deriving DecidableEq

namespace Expr

/-- The number of an expression that is a literal. -/
def value? : Expr → Option Float
  | literal v => some v
  | _ => none

/-- The names of the columns that an expression refers to, from left to right. -/
def columns : Expr → List String
  | column name => [name]
  | call _ argument => argument.columns
  | binary left _ right => left.columns ++ right.columns
  | literal _ => []
  | row => []
  | constant _ => []

end Expr

/-- An expression, and the name of the column that it fills if it has one. -/
structure Formula where
  target : Option String
  value : Expr
  deriving DecidableEq

/-!
## Writing expressions

The text of an expression has a blank on both sides of each operator, and parentheses around an
operand only where the levels ask for them: on the left around a looser level, on the right also
around the same level.
-/

namespace Expr

/-- The level of a binary expression with a known operator. -/
def level? : Expr → Option Level
  | binary _ op _ => Level.of? op
  | _ => none

/-- Whether a left operand of a level stands in parentheses. -/
def leftNeedsParens (own operand : Option Level) : Bool :=
  match own, operand with
  | some o, some l => l.rank < o.rank
  | _, _ => false

/-- Whether a right operand of a level stands in parentheses. -/
def rightNeedsParens (own operand : Option Level) : Bool :=
  match own, operand with
  | some o, some r => r.rank ≤ o.rank
  | _, _ => false

def parens (needed : Bool) (text : List Char) : List Char :=
  if needed then '(' :: text ++ [')'] else text

/-- The characters of an expression's text. -/
def chars : Expr → List Char
  | literal v => Number.literal v
  | column name => '$' :: name.toList ++ ['$']
  | row => ['#']
  | constant name => name.toList
  | call function argument => function.toList ++ '(' :: argument.chars ++ [')']
  | binary left op right =>
    parens (leftNeedsParens (Level.of? op) left.level?) left.chars
      ++ [' ', op, ' ']
      ++ parens (rightNeedsParens (Level.of? op) right.level?) right.chars

/-- An expression as text. -/
def text (e : Expr) : String :=
  .ofList e.chars

end Expr

namespace Formula

def chars (f : Formula) : List Char :=
  match f.target with
  | some name => name.toList ++ [' ', '=', ' '] ++ f.value.chars
  | none => f.value.chars

/-- A formula as text. -/
def text (f : Formula) : String :=
  .ofList f.chars

end Formula

/-!
## Outlines of expressions

An outline shows the tree of an expression, one node on a line and operands further to the right
than their operator.
-/

/-- What an outline says of one node. -/
def Expr.label : Expr → List Char
  | .literal v => "Literal: ".toList ++ Number.plain v
  | .column name => "ColRef (name: ".toList ++ name.toList ++ [')']
  | .row => "RowId: #".toList
  | .constant name => "Constant: ".toList ++ name.toList
  | .call function _ => "FunctionCall (name: ".toList ++ function.toList ++ [')']
  | .binary _ op _ => "BinaryOp (operator: ".toList ++ [op, ')']

/-- A line of an outline, with its end. -/
def outlineLine (indent : Nat) (label : List Char) : List Char :=
  List.replicate indent ' ' ++ label ++ ['\n']

/-- The lines of a tree in pre-order, the operands of a node `step` further in. -/
def Expr.outlineLines (indent step : Nat) : Expr → List (List Char)
  | .call function argument =>
    outlineLine indent (label (.call function argument))
      :: argument.outlineLines (indent + step) step
  | .binary left op right =>
    outlineLine indent (label (.binary left op right))
      :: (left.outlineLines (indent + step) step ++ right.outlineLines (indent + step) step)
  | leaf => [outlineLine indent leaf.label]

def Expr.outline (indent step : Nat) (e : Expr) : String :=
  .ofList (e.outlineLines indent step).flatten

/-- A target is one more level on the outside. -/
def Formula.outlineLines (indent step : Nat) (f : Formula) : List (List Char) :=
  match f.target with
  | some name =>
    outlineLine indent ("Assignment (target: ".toList ++ name.toList ++ [')'])
      :: f.value.outlineLines (indent + step) step
  | none => f.value.outlineLines indent step

def Formula.outline (indent step : Nat) (f : Formula) : String :=
  .ofList (f.outlineLines indent step).flatten

end ColumnCalc
