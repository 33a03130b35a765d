import ColumnCalc.Expr.Basic
import ColumnCalc.Expr.Literal

/-!
# Reading expressions

A formula is an optional name and `=`, then an expression that fills the rest of the text. An
expression is a chain of operands on three levels of operators; an operand is a call, a column, a
literal, the row index, an expression in parentheses or a constant, the first of these that matches.
Blanks may stand between any two of these pieces, but not inside a literal and not behind the `$`
that opens a column.

The parser of operands takes the parser of inner expressions as an argument that is asked only for
texts shorter than the operand's own, which is why the whole reading ends.
-/

namespace ColumnCalc

open Text (skipBlank length_skipBlank_le)

namespace Parser

abbrev Result (s : List Char) := Except ParseError (Parsed Expr s)

/-- A parser of expressions for the texts of at most `n` characters. -/
abbrev Upto (n : Nat) := (t : List Char) → t.length ≤ n → Result t

/-- A parser of expressions for the texts shorter than `s`. -/
abbrev Within (s : List Char) := (t : List Char) → t.length < s.length → Result t

def expect (c : Char) (s : List Char) : Except ParseError (Parsed Char s) :=
  match Scan.char? c s with
  | some p => .ok p
  | none => .error (.single (.expected c) s)

def identifier (s : List Char) : Except ParseError (Parsed (List Char) s) :=
  match Scan.identifier? s with
  | some p => .ok p
  | none => .error (.single .identifier s)

/-! ## Operands -/

/-- An expression behind an opening parenthesis, up to the closing one and the blanks behind it. -/
def closed {s : List Char} (opened : Parsed Char s) (inner : Within s) : Result s := do
  let afterOpen := opened.skipBlank
  let value ← inner afterOpen.rest afterOpen.rest_lt
  let afterValue := (value.skipBlank).widen (Nat.le_of_lt afterOpen.rest_lt)
  let close ← expect ')' afterValue.rest
  pure (((close.map fun _ => value.value).skipBlank).widen (Nat.le_of_lt afterValue.rest_lt))

/-- A name, then an expression in parentheses. -/
def call (s : List Char) (inner : Within s) : Result s := do
  let name ← identifier s
  let afterName := name.skipBlank
  let opened ← expect '(' afterName.rest
  let argument ← closed (opened.widen (Nat.le_of_lt afterName.rest_lt)) inner
  pure (argument.map (.call (.ofList name.value)))

/-- A column's name between two `$`. -/
def column (s : List Char) : Result s := do
  let opened ← expect '$' s
  match Scan.columnName? opened.rest with
  | none => .error (.single .columnName opened.rest)
  | some name => do
    let close ← expect '$' name.rest
    let column := close.map fun _ => Expr.column (.ofList name.value)
    pure (column.skipBlank.widen (Nat.le_of_lt (Nat.lt_trans name.rest_lt opened.rest_lt)))

def literal (s : List Char) : Result s := do
  let l ← Literal.parse s
  pure (l.map fun l => Expr.literal l.value).skipBlank

def row (s : List Char) : Result s := do
  let mark ← expect '#' s
  pure (mark.map fun _ => Expr.row).skipBlank

def parenthesized (s : List Char) (inner : Within s) : Result s := do
  let opened ← expect '(' s
  closed opened inner

def constant (s : List Char) : Result s := do
  let name ← identifier s
  pure (name.map fun name => Expr.constant (.ofList name)).skipBlank

/-- The first alternative that succeeds; if none does, an error caused by the one that got
furthest. -/
def firstOf (s : List Char) (furthest : Option ParseError) : List (Unit → Result s) → Result s
  | [] => .error (.noAlternative s furthest)
  | alternative :: more =>
    match alternative () with
    | .ok p => .ok p
    | .error e => firstOf s (some (.further furthest e)) more

/-- The forms of operands, all tried on the same text. -/
def operand (s : List Char) (inner : Within s) : Result s :=
  firstOf s none [
    fun _ => call s inner,
    fun _ => column s,
    fun _ => literal s,
    fun _ => row s,
    fun _ => parenthesized s inner,
    fun _ => constant s]

/-! ## Operators -/

/-- Operators of a level, each with its right operand, applied to what stands to their left. -/
def operations {n : Nat} (operators : List Char) (operand : Upto n) (left : Expr) (s : List Char)
    (h : s.length ≤ n) : Except ParseError { p : Expr × List Char // p.2.length ≤ s.length } :=
  match Scan.oneOf? operators s with
  | none => .ok ⟨(left, s), Nat.le_refl _⟩
  | some op => do
    let afterOp := op.skipBlank
    let right ← operand afterOp.rest (Nat.le_trans (Nat.le_of_lt afterOp.rest_lt) h)
    have shorter : right.rest.length < s.length := Nat.lt_trans right.rest_lt afterOp.rest_lt
    let more ← operations operators operand (.binary left op.value right.value) right.rest
      (Nat.le_trans (Nat.le_of_lt shorter) h)
    pure ⟨more.1, Nat.le_trans more.2 (Nat.le_of_lt shorter)⟩
termination_by s.length

/-- A chain of operands of one level, grouped to the left. -/
def chain {n : Nat} (operators : List Char) (operand : Upto n) : Upto n := fun s h => do
  let first ← operand s h
  let all ← operations operators operand first.value first.rest
    (Nat.le_trans (Nat.le_of_lt first.rest_lt) h)
  pure ⟨all.1.1, all.1.2, Nat.lt_of_le_of_lt all.2 first.rest_lt⟩

/-- The expressions of a level. -/
def level {n : Nat} (operand : Upto n) : Level → Upto n
  | .exponential => chain Level.exponential.operators operand
  | .multiplicative =>
    chain Level.multiplicative.operators (chain Level.exponential.operators operand)
  | .additive =>
    chain Level.additive.operators
      (chain Level.multiplicative.operators (chain Level.exponential.operators operand))

/-- An expression at the front of a text, with the blanks behind it. -/
def expression (s : List Char) : Result s :=
  level (n := s.length) (fun t _ => operand t fun u _ => expression u) .additive s (Nat.le_refl _)
termination_by s.length

/-! ## Whole texts -/

/-- Refuses anything but blanks. -/
def atEnd (s : List Char) : Except ParseError Unit :=
  if (skipBlank s).isEmpty then .ok () else .error (.single .trailingInput (skipBlank s))

/-- A name and `=` at the front of a text, with the blanks behind them. -/
def target? (s : List Char) : Option (List Char × List Char) := do
  let name ← Scan.identifier? s
  let equals ← Scan.char? '=' (skipBlank name.rest)
  pure (name.value, skipBlank equals.rest)

/-- An expression that fills a text from its first character on. -/
def whole (s : List Char) : Except ParseError Expr := do
  let value ← expression s
  atEnd value.rest
  pure value.value

end Parser

/-- Reads an expression. -/
def Expr.parse (text : String) : Except ParseError Expr :=
  Parser.whole (skipBlank text.toList)

/-- Reads an expression that may have a target. -/
def Formula.parse (text : String) : Except ParseError Formula :=
  let start := skipBlank text.toList
  match Parser.target? start with
  | some (name, rest) => do
    let value ← Parser.whole rest
    pure ⟨some (.ofList name), value⟩
  | none => do
    let value ← Parser.whole start
    pure ⟨none, value⟩

end ColumnCalc
