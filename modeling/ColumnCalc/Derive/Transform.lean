import ColumnCalc.Csv.Table
import ColumnCalc.Derive.Deriver
import ColumnCalc.Rows.Range

/-!
# Deriving tables

`Deriver.transform` writes the selected records of a table with the derived values behind their
cells, `Deriver.generate` writes derived values for rows that have no cells. What was written before
an error stays written.
-/

namespace ColumnCalc

/-- How many records were read and how many were written behind the header. -/
structure Summary where
  read : Nat
  written : Nat
  deriving DecidableEq, Repr

namespace Summary

def countRead (counts : Summary) : Summary :=
  ⟨counts.read + 1, counts.written⟩

def countWritten (counts : Summary) : Summary :=
  ⟨counts.read, counts.written + 1⟩

end Summary

/-- Written bytes, and how the writing ended. -/
structure Derivation where
  output : Bytes
  result : Except DeriveError Summary

/-- The same run behind bytes that were written before it. -/
def Derivation.behind (r : Derivation) (written : Bytes) : Derivation :=
  ⟨written ++ r.output, r.result⟩

structure TransformOptions where
  range : RowRange
  /-- Leave out the cells of the input. -/
  derivedOnly : Bool

namespace TransformOptions

/-- The cells of the input that are written. -/
def kept (options : TransformOptions) (cells : List String) : List String :=
  if options.derivedOnly then [] else cells

end TransformOptions

namespace Deriver

/-- The text of one row. -/
def writeRow (d : Deriver) (options : TransformOptions) (headers : List String) (index : Nat)
    (cells : List String) : Except DeriveError Bytes := do
  let values ← d.values index (.ofRecord headers cells)
  pure (Csv.writeRecord (options.kept cells ++ values.map Cell.ofNumber))

/--
The records from the index `index` on, one after another: what is written, and how it ends if
`counts` were read and written before. A record behind the range is read but ends the run; one that
the range leaves out is only counted.
-/
def transformFrom (d : Deriver) (options : TransformOptions) (headers : List String) (index : Nat)
    (counts : Summary) : List (Except Csv.Error (List String)) → Derivation
  | [] => ⟨[], .ok counts⟩
  | .error error :: _ => ⟨[], .error (.csv error)⟩
  | .ok cells :: others =>
    if options.range.isPast index then ⟨[], .ok counts.countRead⟩
    else if options.range.contains index then
      match d.writeRow options headers index cells with
      | .error error => ⟨[], .error error⟩
      | .ok row =>
        (d.transformFrom options headers (index + 1) counts.countRead.countWritten others).behind row
    else d.transformFrom options headers (index + 1) counts.countRead others

/-- The selected records of a table with their derived values. -/
def transformTable (d : Deriver) (options : TransformOptions) (table : Csv.Table) : Derivation :=
  match table.headers with
  | .error error => ⟨[], .error (.csv error)⟩
  | .ok headers =>
    (d.transformFrom options headers 0 ⟨0, 0⟩ table.records).behind
      (Csv.writeRecord (options.kept headers ++ d.names))

def transform (d : Deriver) (options : TransformOptions) (input : Bytes) : Derivation :=
  d.transformTable options (.ofBytes input)

/--
Rows without cells from the index `first` on, written like those of a table. Behind a row without
values no further row is looked at, so that a large count costs nothing then.
-/
def writeBareRows (d : Deriver) (first : Nat) : Nat → Bytes × Option DeriveError
  | 0 => ([], none)
  | count + 1 =>
    match d.writeRow ⟨.all, true⟩ [] first [] with
    | .error error => ([], some error)
    | .ok row =>
      let (output, error) := d.writeBareRows (first + 1) count
      (row ++ output, error)

/-- The first column that refers to a cell, with the name it refers to. -/
def firstReference? (d : Deriver) : Option (DerivedColumn × String) :=
  d.columns.findSome? fun column => column.expr.columns.head?.map fun name => (column, name)

/-- Derived values of `count` rows without cells. A column that needs a cell is an error. -/
def generate (d : Deriver) (count : Nat) : Derivation :=
  match d.firstReference? with
  | some (column, name) => ⟨[], .error (.row 0 column.name (.columnNotFound name))⟩
  | none =>
    let (output, error) := d.writeBareRows 0 count
    let result :=
      match error with
      | some error => .error error
      | none => .ok ⟨0, count⟩
    ⟨Csv.writeRecord d.names ++ output, result⟩

end Deriver

end ColumnCalc
