import ColumnCalc.Eval.Context
import ColumnCalc.Files.Directory
import ColumnCalc.Number.Notation
import ColumnCalc.Text.Characters
import ColumnCalc.Text.Utf8

/-!
# Tables of comma-separated cells

The bytes of a table are cut into rows and cells, cells are decoded, records are written, and a cell
may be read as a number.
-/

namespace ColumnCalc

open Text (decode? validLength)

/-!
## Rows of a CSV text

Cells are separated by commas and rows end with a line feed or a carriage return. A quote at the
start of a cell opens a quoted part in which commas and line ends are data and two quotes are one;
behind its closing quote the cell goes on as bare text. Line ends between rows are skipped, and the
end of the text ends a row that was begun.
-/

namespace Csv

def comma : UInt8 := 0x2c

def quote : UInt8 := 0x22

def lineFeed : UInt8 := 0x0a

def carriageReturn : UInt8 := 0x0d

def isLineEnd (b : UInt8) : Bool :=
  b = lineFeed || b = carriageReturn

/-- The mark of UTF-8 that a file may begin with. -/
def byteOrderMark : Bytes := [0xef, 0xbb, 0xbf]

/-- How far a text has been read when a row begins: bytes, lines from 1 on, and whole rows. -/
structure Place where
  byte : Nat
  line : Nat
  row : Nat
  deriving DecidableEq, Repr

namespace Place

def start : Place :=
  ⟨0, 1, 0⟩

/-- The place behind one more byte. -/
def past (p : Place) (b : UInt8) : Place :=
  ⟨p.byte + 1, if b = lineFeed then p.line + 1 else p.line, p.row⟩

/-- The place behind one more row. -/
def nextRow (p : Place) : Place :=
  ⟨p.byte, p.line, p.row + 1⟩

end Place

/-- A row and the place where its reading began. -/
structure Row where
  place : Place
  cells : List Bytes
  deriving DecidableEq, Repr

/-- What the bytes read so far are the front of. -/
inductive Mode where
  /-- No row has begun. -/
  | between
  /-- A cell has no bytes yet. -/
  | cellStart
  | bare
  | quoted
  /-- A quote inside a quoted part, which closes it unless another one follows. -/
  | quoteSeen
  deriving DecidableEq, Repr

/-- What to do with a byte. -/
inductive Action where
  | drop (next : Mode)
  | take (next : Mode)
  | endCell
  | endRow
  deriving DecidableEq, Repr

/-- Outside a quoted part, a byte is a separator or belongs to the cell. -/
def Action.ofBare (b : UInt8) : Action :=
  if b = comma then .endCell else if isLineEnd b then .endRow else .take .bare

namespace Mode

def action (b : UInt8) : Mode → Action
  | between =>
    if isLineEnd b then .drop .between else if b = quote then .drop .quoted else .ofBare b
  | cellStart => if b = quote then .drop .quoted else .ofBare b
  | bare => .ofBare b
  | quoted => if b = quote then .drop .quoteSeen else .take .quoted
  | quoteSeen => if b = quote then .take .quoted else .ofBare b

end Mode

/-- A row from its cells and its last cell's bytes, both in reverse. -/
def Row.close (place : Place) (cells : List Bytes) (cell : Bytes) : Row :=
  ⟨place, (cell.reverse :: cells).reverse⟩

/--
The rows of a text. `began` is where the row in progress began and `here` what has been read;
`cells` and `cell` hold the cells and bytes of that row in reverse.
-/
def scan (began here : Place) (mode : Mode) (cells : List Bytes) (cell : Bytes) :
    Bytes → List Row
  | [] => if mode = .between then [] else [.close began cells cell]
  | b :: bs =>
    match mode.action b with
    | .drop next => scan began (here.past b) next cells cell bs
    | .take next => scan began (here.past b) next cells (b :: cell) bs
    | .endCell => scan began (here.past b) .cellStart (cell.reverse :: cells) [] bs
    | .endRow =>
      .close began cells cell
        :: scan (here.past b).nextRow (here.past b).nextRow .between [] [] bs

/-- The rows of a text that may begin with a byte order mark. -/
def rows (bytes : Bytes) : List Row :=
  if byteOrderMark.isPrefixOf bytes then
    scan .start (byteOrderMark.foldl .past .start) .between [] [] (bytes.drop byteOrderMark.length)
  else scan .start .start .between [] [] bytes

end Csv

/-!
## Tables

A table is read from bytes: the first row holds the headers, the others are records of any length.
Headers and cells are texts in UTF-8 without blanks at their ends; a row that is not UTF-8 is an
error in its place and does not keep the rows behind it from being read.
-/

namespace Csv

inductive Error where
  /-- The row at a place has a cell that is not UTF-8; its first `valid` bytes are. -/
  | invalidText (place : Place) (cell valid : Nat)
  /-- There are no bytes to read. -/
  | unreadable (error : FileError)
  deriving DecidableEq, Repr

def Error.message : Error → String
  | invalidText place cell valid =>
    "CSV parse error: record " ++ toString place.row ++ " (line " ++ toString place.line
      ++ ", field: " ++ toString cell ++ ", byte: " ++ toString place.byte
      ++ "): invalid utf-8: invalid UTF-8 in field " ++ toString cell ++ " near byte index "
      ++ toString valid
  | unreadable error => error.message

/-- The ASCII blanks, which are cut off a record's cell before its bytes are counted. -/
def isAsciiBlank (b : UInt8) : Bool :=
  b = 0x20 || b = 0x09 || b = 0x0a || b = 0x0c || b = 0x0d

def trimAscii (bytes : Bytes) : Bytes :=
  ((bytes.dropWhile isAsciiBlank).reverse.dropWhile isAsciiBlank).reverse

/--
The texts of a row's cells. In an error, the valid bytes are counted from where `counted` begins.
-/
def decodeRow (counted : Bytes → Bytes) (row : Row) : Except Error (List String) :=
  row.cells.zipIdx.mapM fun (bytes, i) =>
    match decode? bytes with
    | some text => .ok (Text.trim text)
    | none => .error (.invalidText row.place i (validLength (counted bytes)))

/-- Headers, and records in their order. -/
structure Table where
  headers : Except Error (List String)
  records : List (Except Error (List String))

/-- A text without rows has no headers and no records. -/
def Table.ofBytes (bytes : Bytes) : Table :=
  match rows bytes with
  | [] => ⟨.ok [], []⟩
  | first :: others => ⟨decodeRow id first, others.map (decodeRow trimAscii)⟩

/-- A table whose bytes cannot be read, headers first. -/
def Table.unreadable (error : FileError) : Table :=
  ⟨.error (.unreadable error), []⟩

end Csv

/-!
## Writing records

A record is written as its cells with commas between them and a line feed behind them. A cell is
quoted only if it holds a comma, a quote or a line end. A record that would be an empty line is
written as one quoted empty cell.
-/

namespace Csv

/-- Whether a byte would be read as something else than a part of a bare cell. -/
def isSpecial (b : UInt8) : Bool :=
  b = comma || b = quote || isLineEnd b

/-- A byte inside a quoted cell. -/
def quotedByte (b : UInt8) : Bytes :=
  if b = quote then [quote, quote] else [b]

def quoteCell (cell : Bytes) : Bytes :=
  quote :: cell.flatMap quotedByte ++ [quote]

def writeCell (cell : String) : Bytes :=
  let bytes := Text.encode cell
  if bytes.any isSpecial then quoteCell bytes else bytes

def writeRecord (cells : List String) : Bytes :=
  let line := [comma].intercalate (cells.map writeCell)
  (if line.isEmpty then quoteCell [] else line) ++ [lineFeed]

def writeRecords (records : List (List String)) : Bytes :=
  records.flatMap writeRecord

end Csv

/-!
## The numbers in cells

A cell counts as the number that it spells. Where truth values are wanted too, a few words stand for
one and zero.
-/

namespace Cell

def number? (cell : String) : Option Float :=
  Number.read? (Text.trimList cell.toList)

/-- The number in a cell, `nan` if it is none. -/
def number (cell : String) : Float :=
  (number? cell).getD (0.0 / 0.0)

def trueWords : List String :=
  ["true", "t", "1", "y", "yes"]

def falseWords : List String :=
  ["false", "f", "0", "n", "no"]

/-- The number in a cell, or the truth value in any case, if it is one of them. -/
def numberOrTruth? (cell : String) : Option Float :=
  match number? cell with
  | some v => some v
  | none =>
    let word := Text.lower (Text.trim cell)
    if word ∈ trueWords then some 1.0
    else if word ∈ falseWords then some 0.0
    else none

/-- The text of a number in a cell. -/
def ofNumber (v : Float) : String :=
  .ofList (Number.cell v)

end Cell

/-- The values of a record under its headers. Headers without a cell have none. -/
def RowValues.ofRecord (headers cells : List String) : RowValues :=
  ⟨(headers.zip cells).map fun (header, cell) => (header, Cell.number cell)⟩

end ColumnCalc
