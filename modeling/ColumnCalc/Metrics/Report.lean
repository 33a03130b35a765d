import ColumnCalc.Metrics.Basic
import ColumnCalc.Number.Notation

/-!
# Reports of metrics

The metrics of a table as a text with a paragraph for each column, or as a JSON object with a member
for each name of a column.
-/

namespace ColumnCalc

/-!
## JSON text

The part of JSON that reports need: objects whose members keep their order, numbers, counts and
`null`. A member that is put twice keeps its first place and its last value.
-/

inductive Json where
  | null
  | count (n : Nat)
  /-- A number; one that is not finite is written as `null`. -/
  | number (v : Float)
  | object (members : List (String × Json))

namespace Json

/-- The members with one more, in place of an earlier one of the same name. -/
def put (name : String) (value : Json) : List (String × Json) → List (String × Json)
  | [] => [(name, value)]
  | member :: others =>
    if member.1 = name then (name, value) :: others else member :: put name value others

/-- The object that arises by putting members one after another. -/
def ofMembers (members : List (String × Json)) : Json :=
  object (members.foldl (fun all member => put member.1 member.2 all) [])

/-- A character inside a JSON string. -/
def stringChar (c : Char) : List Char :=
  match c with
  | '"' => ['\\', '"']
  | '\\' => ['\\', '\\']
  | '\x08' => ['\\', 'b']
  | '\x0c' => ['\\', 'f']
  | '\n' => ['\\', 'n']
  | '\r' => ['\\', 'r']
  | '\t' => ['\\', 't']
  | c =>
    if c.toNat < 0x20 then
      ['\\', 'u', '0', '0', Nat.digitChar (c.toNat / 16), Nat.digitChar (c.toNat % 16)]
    else [c]

def string (s : String) : List Char :=
  '"' :: s.toList.flatMap stringChar ++ ['"']

/-- How objects are laid out: on one line, or a member on each line with an indent. -/
inductive Layout where
  | compact
  | indented
  deriving DecidableEq, Repr

namespace Layout

/-- The start of a line in an object at a depth. -/
def newline (layout : Layout) (depth : Nat) : List Char :=
  match layout with
  | compact => []
  | indented => '\n' :: List.replicate (2 * depth) ' '

/-- What stands between a name and its value. -/
def colon : Layout → List Char
  | compact => [':']
  | indented => [':', ' ']

end Layout

mutual

/-- The text of a value at a depth. -/
def chars (layout : Layout) (depth : Nat) : Json → List Char
  | null => ['n', 'u', 'l', 'l']
  | count n => Nat.toDigits 10 n
  | number v => (Number.json? v).getD ['n', 'u', 'l', 'l']
  | object [] => ['\x7b', '\x7d']
  | object (member :: others) =>
    ['\x7b'] ++ memberChars layout (depth + 1) member ++ othersChars layout (depth + 1) others
      ++ layout.newline depth ++ ['\x7d']

/-- A member of an object on a line of its own. -/
def memberChars (layout : Layout) (depth : Nat) : String × Json → List Char
  | (name, value) => layout.newline depth ++ string name ++ layout.colon ++ chars layout depth value

/-- The members behind the first one. -/
def othersChars (layout : Layout) (depth : Nat) : List (String × Json) → List Char
  | [] => []
  | member :: others =>
    [','] ++ memberChars layout depth member ++ othersChars layout depth others

end

def text (layout : Layout) (j : Json) : String :=
  .ofList (j.chars layout 0)

end Json

/-! ## Reports -/

namespace ColumnMetrics

def paragraph (m : ColumnMetrics) : String :=
  "Column \"" ++ m.name ++ "\"\n"
    ++ "    Min: " ++ .ofList (Number.plain m.least) ++ "\n"
    ++ "    Max: " ++ .ofList (Number.plain m.greatest) ++ "\n"
    ++ "    Avg: " ++ .ofList (Number.plain m.average) ++ "\n\n"

def toJson (m : ColumnMetrics) : Json :=
  .ofMembers [("min", .number m.least), ("max", .number m.greatest), ("avg", .number m.average),
    ("count", .count m.count)]

end ColumnMetrics

namespace Metrics

def textReport (metrics : List ColumnMetrics) : String :=
  String.join (metrics.map (·.paragraph))

def toJson (metrics : List ColumnMetrics) : Json :=
  .ofMembers (metrics.map fun m => (m.name, m.toJson))

def jsonReport (layout : Json.Layout) (metrics : List ColumnMetrics) : String :=
  (toJson metrics).text layout ++ "\n"

end Metrics

end ColumnCalc
