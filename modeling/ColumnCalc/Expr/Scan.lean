import ColumnCalc.Text.Characters

/-!
# Scanning

The language has no tokens: its parser reads characters from the front of a text. Each scanning step
takes the longest run of a class of characters, or one given character, and leaves a shorter text.
-/

namespace ColumnCalc

open Text

/-- What was read from the front of `s`, and the shorter text that is left. -/
structure Parsed (α : Type) (s : List Char) where
  value : α
  rest : List Char
  rest_lt : rest.length < s.length

namespace Parsed

def map {α β : Type} {s : List Char} (f : α → β) (p : Parsed α s) : Parsed β s :=
  ⟨f p.value, p.rest, p.rest_lt⟩

/-- The same result without the blanks at the front of what is left. -/
def skipBlank {α : Type} {s : List Char} (p : Parsed α s) : Parsed α s :=
  ⟨p.value, Text.skipBlank p.rest, Nat.lt_of_le_of_lt (length_skipBlank_le _) p.rest_lt⟩

/-- The same result as a piece of a text that is no shorter. -/
def widen {α : Type} {s t : List Char} (h : s.length ≤ t.length) (p : Parsed α s) : Parsed α t :=
  ⟨p.value, p.rest, Nat.lt_of_lt_of_le p.rest_lt h⟩

end Parsed

def isIdentStart (c : Char) : Bool :=
  isLetter c || c == '_'

def isIdentPart (c : Char) : Bool :=
  isLetterOrNumber c || c == '_'

def isColumnStart (c : Char) : Bool :=
  isLetterOrNumber c || c == '_' || c == '(' || c == ')'

def isColumnPart (c : Char) : Bool :=
  isColumnStart c || c == ' '

namespace Scan

/-- One of the given characters. -/
def oneOf? (options : List Char) (s : List Char) : Option (Parsed Char s) :=
  match s with
  | [] => none
  | c :: r => if c ∈ options then some ⟨c, r, Nat.lt_succ_self _⟩ else none

/-- The given character. -/
def char? (expected : Char) (s : List Char) : Option (Parsed Char s) :=
  oneOf? [expected] s

/-- A character of the first class, then the longest run of the second. -/
def run? (start part : Char → Bool) (s : List Char) : Option (Parsed (List Char) s) :=
  match s with
  | [] => none
  | c :: r =>
    if start c then
      some ⟨c :: r.takeWhile part, r.dropWhile part, Nat.lt_succ_of_le (length_dropWhile_le part r)⟩
    else none

/-- A letter or underscore, then letters, numbers and underscores. -/
def identifier? (s : List Char) : Option (Parsed (List Char) s) :=
  run? isIdentStart isIdentPart s

/-- ASCII digits. -/
def digits? (s : List Char) : Option (Parsed (List Char) s) :=
  run? Char.isDigit Char.isDigit s

/--
The name of a column: letters, numbers, underscores, parentheses and, behind the first character,
ASCII spaces. Spaces at its end are read but are not part of the name.
-/
def columnName? (s : List Char) : Option (Parsed (List Char) s) :=
  (run? isColumnStart isColumnPart s).map (·.map (trimEnd (· == ' ')))

end Scan

end ColumnCalc
