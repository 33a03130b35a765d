import ColumnCalc.Command.Docs
import ColumnCalc.Csv.Table
import ColumnCalc.Derive.Deriver
import ColumnCalc.Derive.Transform
import ColumnCalc.Expr.Basic
import ColumnCalc.Metrics.Report
import ColumnCalc.Rows.Range

/-!
# The commands

What each command computes from its texts and bytes, and the error that it ends with if it cannot.
-/

namespace ColumnCalc

/-!
## Errors of commands

A command ends with an error of the library, with an unusable file or with an unusable argument.
-/

inductive CommandError where
  | parse (error : ParseError)
  | eval (error : EvalError)
  | derive (error : DeriveError)
  | range (error : RangeError)
  | csv (error : Csv.Error)
  | file (error : FileError)
  /-- The value of a column is not given as `NAME=VALUE`. -/
  | invalidBinding (text : String)
  /-- Neither a table nor a number of rows is given. -/
  | noInput
  /-- No source defines a column. -/
  | noExpressions
  | unknownPage (name : String)
  deriving DecidableEq

def CommandError.message : CommandError → String
  | parse error => "Parse error: " ++ error.message
  | eval error => "Evaluation error: " ++ error.message
  | derive error => error.message
  | range error => "Invalid range: " ++ error.message
  | csv error => "CSV error: " ++ error.message
  | file error => "IO error: " ++ error.message
  | invalidBinding text =>
    "Invalid column binding " ++ Text.quoted text ++ ", expected NAME=VALUE"
  | noInput => "No input provided. Pass a CSV file, pipe one to stdin, or use --rows."
  | noExpressions => "No valid column expressions given"
  | unknownPage name =>
    "Unknown category: '" ++ name ++ "'\nRun 'csvplot docs' to see available categories."

/-!
## Inspecting expressions and tables

The commands that show an expression's tree, its value in a row written by hand, the headers of a
table and the pages of documentation.
-/

namespace Command

/-- A formula and its outline. -/
def describe (title : String) (f : Formula) : String :=
  title ++ ": " ++ f.text ++ "\n" ++ f.outline 2 4

/-- The tree of an expression, and the simplified one too if `folded`. -/
def check (text : String) (folded : Bool) : Except CommandError String := do
  let formula ← (Formula.parse text).mapError .parse
  let parsed := describe "Parsed" formula
  if folded then do
    let simple ← (formula.simplify .empty).mapError .eval
    pure (parsed ++ describe "Folded" simple)
  else pure parsed

/-- The text in front of the last `=` and the text behind it. -/
def splitBinding? (s : List Char) : Option (List Char × List Char) :=
  match s.reverse.dropWhile (· != '=') with
  | [] => none
  | _ :: name => some (name.reverse, (s.reverse.takeWhile (· != '=')).reverse)

/-- A column's name and value from `NAME=VALUE`; the value is read like a cell. -/
def binding (text : String) : Except CommandError (String × Float) :=
  match splitBinding? text.toList with
  | none => .error (.invalidBinding text)
  | some (name, value) =>
    let name := Text.trimList name
    if name.isEmpty then .error (.invalidBinding text)
    else .ok (.ofList name, Cell.number (.ofList value))

/-- An expression simplified for a row; without bindings no cell of the row is known. -/
def evaluate (text : String) (index : Option Nat) (bindings : List String) :
    Except CommandError Expr := do
  let formula ← (Formula.parse text).mapError .parse
  let values ← bindings.mapM binding
  let known := if bindings.isEmpty then none else some ⟨values⟩
  (formula.value.simplify ⟨index, known⟩).mapError .eval

/-- What is shown of an evaluated expression: a number as in a cell, else the expression. -/
def showValue (e : Expr) : String :=
  match e.value? with
  | some v => Cell.ofNumber v
  | none => e.text

/-- A number with blanks before it up to a width. -/
def padded (width : Nat) (n : Nat) : String :=
  let ds := Nat.toDigits 10 n
  .ofList (List.replicate (width - ds.length) ' ' ++ ds)

/-- The number of headers, then each with its index. -/
def listHeaders (headers : List String) : String :=
  let width := (Nat.toDigits 10 (headers.length - 1)).length
  let line := fun (header, i) => "  " ++ padded width i ++ " : " ++ header ++ "\n"
  "Column headers found: " ++ toString headers.length ++ "\n"
    ++ String.join (headers.zipIdx.map line)

/-- The headers of a table. -/
def headers (input : Bytes) : Except CommandError String := do
  let headers ← (Csv.Table.ofBytes input).headers.mapError .csv
  pure (listHeaders headers)

/-- A page of documentation. -/
def page (name : String) : Except CommandError String :=
  match Docs.Page.ofName? name with
  | some page => .ok page.text
  | none => .error (.unknownPage name)

end Command

/-!
## Computing on tables

The commands that report the metrics of a table and that write derived columns.
-/

namespace Command

/-- The metrics of a table as text, or as JSON in a layout. -/
def metrics (input : Bytes) (range : RowRange) (json : Option Json.Layout) :
    Except CommandError String := do
  let metrics ← (Metrics.compute range input).mapError .csv
  match json with
  | some layout => pure (Metrics.jsonReport layout metrics)
  | none => pure (Metrics.textReport metrics)

/-- Written bytes, and how the command ended. -/
structure Written where
  output : Bytes
  result : Except CommandError Summary

/-- Derived columns of a table, or of `count` rows without cells if no table is given. -/
def transformTable (sources : List String) (table : Option Csv.Table) (count : Option Nat)
    (options : TransformOptions) : Written :=
  match Deriver.ofSources sources with
  | .error error => ⟨[], .error (.derive error)⟩
  | .ok d =>
    if d.columns.isEmpty then ⟨[], .error .noExpressions⟩
    else
      match table, count with
      | some table, _ => written (d.transformTable options table)
      | none, some count => written (d.generate count)
      | none, none => ⟨[], .error .noInput⟩
where
  /-- A derivation as the outcome of a command. -/
  written (d : Derivation) : Written :=
    ⟨d.output, d.result.mapError .derive⟩

def transform (sources : List String) (input : Option Bytes) (count : Option Nat)
    (options : TransformOptions) : Written :=
  transformTable sources (input.map .ofBytes) count options

/-- The sources in a file's bytes: its lines without their outer blanks, blank lines left out. -/
def sourceLines (bytes : Bytes) : Except CommandError (List String) :=
  match Text.decode? bytes with
  | none => .error (.file .notText)
  | some text =>
    let lines := (text.toList.splitOn '\n').map Text.trimList
    .ok ((lines.filter (!·.isEmpty)).map .ofList)

end Command

end ColumnCalc
