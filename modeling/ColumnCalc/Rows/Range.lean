import ColumnCalc.Number.Notation
import ColumnCalc.Text.Characters
import ColumnCalc.Text.Quoted

/-!
# Ranges of rows

A range selects the rows from `start` on and before `stop` whose index is a multiple of `divider`.
Rows are counted from zero; the header is not counted.
-/

namespace ColumnCalc

structure RowRange where
  start : Nat
  /-- The first row behind the range, none if it is open. -/
  stop : Option Nat
  divider : Nat
  divider_pos : 0 < divider
  deriving DecidableEq, Repr

namespace RowRange

/-- The range with given bounds; a divider of zero counts as one. -/
def of (start : Nat) (stop : Option Nat) (divider : Nat) : RowRange :=
  ⟨start, stop, max divider 1, Nat.le_max_right ..⟩

/-- Every row. -/
def all : RowRange :=
  of 0 none 1

/-- The row and all that follow it lie behind the range. -/
def isPast (range : RowRange) (index : Nat) : Bool :=
  range.stop.any (· ≤ index)

def contains (range : RowRange) (index : Nat) : Bool :=
  index % range.divider = 0 && range.start ≤ index && !range.isPast index

theorem isPast_mono {range : RowRange} {i j : Nat} (h : i ≤ j) (past : range.isPast i = true) :
    range.isPast j = true := by
  cases hs : range.stop with
  | none => simp [isPast, hs] at past
  | some stop =>
    simp only [isPast, hs, Option.any_some, decide_eq_true_eq] at past ⊢
    omega

theorem contains_iff {range : RowRange} {i : Nat} :
    range.contains i = true ↔
      range.divider ∣ i ∧ range.start ≤ i ∧ ∀ stop, range.stop = some stop → i < stop := by
  cases hs : range.stop with
  | none => simp [contains, isPast, hs, Nat.dvd_iff_mod_eq_zero]
  | some stop => simp [contains, isPast, hs, Nat.dvd_iff_mod_eq_zero, and_assoc]

end RowRange

/-!
## Ranges as text

A region is written `START:STOP`, either side of which may be empty or negative for an open bound.
A divider is a positive whole number. Bounds are numbers of 64 bits with a sign, dividers of 64 bits
without one; larger ones are refused.
-/

inductive RangeError where
  | invalidRegion (text : String)
  | invalidDivider (text : String)
  deriving DecidableEq, Repr

def RangeError.message : RangeError → String
  | invalidRegion text =>
    "region string of the form '[START]:[END]' expected, got " ++ Text.quoted text
  | invalidDivider text => "positive integer expected as divider, got " ++ Text.quoted text

namespace RowRange

/-- A whole number of ASCII digits. -/
def natural? (ds : List Char) : Option Nat :=
  if ds.isEmpty || !ds.all Char.isDigit then none else some (Number.digitsValue ds)

/-- A whole number without sign that fits in 64 bits; a plus sign may stand before it. -/
def count? (s : List Char) : Option Nat :=
  let ds :=
    match s with
    | '+' :: r => r
    | r => r
  (natural? ds).filter (· < Nat.pow 2 64)

/-- One side of a region: nothing, or a whole number that fits in 64 bits with its sign. -/
def bound? (s : List Char) : Option (Option Int) :=
  match s with
  | [] => some none
  | '-' :: ds => ((natural? ds).filter (· ≤ Nat.pow 2 63)).map fun n => some (-(n : Int))
  | ds => ((natural? ds).filter (· < Nat.pow 2 63)).map fun n => some (n : Int)

/-- The two sides of a region, which a colon divides. -/
def sides? (s : List Char) : Option (List Char × List Char) :=
  match s.dropWhile (· != ':') with
  | [] => none
  | _ :: right => some (Text.trimList (s.takeWhile (· != ':')), Text.trimList right)

/-- A first row: none given, or a negative one, is the first of all. -/
def startOf (bound : Option Int) : Nat :=
  (bound.getD 0).toNat

/-- A row behind the last: none given, or a negative one, leaves the range open. -/
def stopOf (bound : Option Int) : Option Nat :=
  (bound.filter (0 ≤ ·)).map Int.toNat

/-- The bounds of a region. -/
def parseRegion (text : String) : Except RangeError (Nat × Option Nat) :=
  let bounds := do
    let (left, right) ← sides? text.toList
    let start ← bound? left
    let stop ← bound? right
    pure (startOf start, stopOf stop)
  match bounds with
  | some bounds => .ok bounds
  | none => .error (.invalidRegion text)

def parseDivider (text : String) : Except RangeError Nat :=
  match count? (Text.trimList text.toList) with
  | none => .error (.invalidDivider text)
  | some 0 => .error (.invalidDivider text)
  | some divider => .ok divider

/-- The range of a region and a divider. -/
def parse (region divider : String) : Except RangeError RowRange := do
  let (start, stop) ← parseRegion region
  let divider ← parseDivider divider
  pure (of start stop divider)

end RowRange

/-!
## Selecting records

The records of a range are met in order. Reading ends at the first record behind the range, which is
still read, or at a record that cannot be read, whether the range would select it or not.
-/

/-- The outcome of reading a table for a range. -/
structure Selection (ε α : Type) where
  /-- How many records were read. -/
  read : Nat
  /-- The selected records with their indices. -/
  rows : List (Nat × α)
  /-- What ended the reading before its time. -/
  failure : Option ε

namespace RowRange

/-- Reads records, the first of which has the index `index`. -/
def selectFrom {ε α : Type} (range : RowRange) (index : Nat) :
    List (Except ε α) → Selection ε α
  | [] => ⟨0, [], none⟩
  | .error e :: _ => ⟨0, [], some e⟩
  | .ok record :: others =>
    if range.isPast index then ⟨1, [], none⟩
    else
      let more := range.selectFrom (index + 1) others
      let rows := if range.contains index then (index, record) :: more.rows else more.rows
      ⟨more.read + 1, rows, more.failure⟩

def select {ε α : Type} (range : RowRange) (records : List (Except ε α)) : Selection ε α :=
  range.selectFrom 0 records

end RowRange

end ColumnCalc
