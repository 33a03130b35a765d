import ColumnCalc.Expr.Scan
import ColumnCalc.Text.Utf8

/-!
# Cursors

A cursor is a place in a text. The place is an offset in bytes of UTF-8, while a text is scanned by
characters of one to four bytes, so not every offset is one of a cursor. A step that fails leaves
the old cursor in the caller's hands.
-/

namespace ColumnCalc

open Text (isBlank slice? trimEnd)

structure Cursor where
  text : String
  /-- The offset in bytes. -/
  position : Nat
  deriving DecidableEq, Repr

namespace Cursor

def ofString (text : String) : Cursor :=
  ⟨text, 0⟩

/--
The text behind the cursor. Within a character there is none, and the empty text stands in for it;
no step leads there from `ofString`.
-/
def remaining (c : Cursor) : String :=
  (slice? c.text c.position c.text.utf8ByteSize).getD ""

def isAtEnd (c : Cursor) : Bool :=
  c.text.utf8ByteSize ≤ c.position

/-- The character `offset` places behind the cursor. -/
def peek? (c : Cursor) (offset : Nat) : Option Char :=
  c.remaining.toList[offset]?

def current? (c : Cursor) : Option Char :=
  c.peek? 0

/-- The cursor `bytes` further on. -/
def skip (c : Cursor) (bytes : Nat) : Cursor :=
  ⟨c.text, c.position + bytes⟩

/-- The cursor behind the current character, if there is one. -/
def advance (c : Cursor) : Cursor :=
  match c.current? with
  | some d => c.skip d.utf8Size
  | none => c

/-- How many bytes stand in front of the first character outside a class. -/
def runSize (p : Char → Bool) : List Char → Nat
  | [] => 0
  | d :: r => if p d then d.utf8Size + runSize p r else 0

/-- The longest run of a class, which may be empty. -/
def takeWhile (p : Char → Bool) (c : Cursor) : String × Cursor :=
  let size := runSize p c.remaining.toList
  ((slice? c.remaining 0 size).getD "", c.skip size)

def skipBlank (c : Cursor) : Cursor :=
  (c.takeWhile isBlank).2

def char? (expected : Char) (c : Cursor) : Option Cursor :=
  if c.current? = some expected then some c.advance else none

def oneOf? (options : List Char) (c : Cursor) : Option (Char × Cursor) := do
  let d ← c.current?
  if d ∈ options then some (d, c.advance) else none

/-- The longest run of the second class, if it begins with a character of the first. -/
def run? (start part : Char → Bool) (c : Cursor) : Option (String × Cursor) := do
  let d ← c.current?
  if start d then some (c.takeWhile part) else none

def identifier? (c : Cursor) : Option (String × Cursor) :=
  c.run? isIdentStart isIdentPart

def digits? (c : Cursor) : Option (String × Cursor) :=
  let (digits, next) := c.takeWhile Char.isDigit
  if digits.isEmpty then none else some (digits, next)

/-- The name of a column. Spaces at its end are read but are not part of the name. -/
def columnName? (c : Cursor) : Option (String × Cursor) :=
  (c.run? isColumnStart isColumnPart).map fun (name, next) =>
    (.ofList (trimEnd (· == ' ') name.toList), next)

end Cursor

end ColumnCalc
