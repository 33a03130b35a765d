import ColumnCalc.Number.Decimal
import ColumnCalc.Text.Characters

/-!
# Operators, functions and constants

The tables of what the language can compute. All arithmetic is on doubles; division and remainder by
zero, and functions outside their domain, give `nan`.
-/

namespace ColumnCalc

open Number (units magnitude isNegative ofMagnitude nearest)

namespace Arithmetic

/-- The value that is no number. -/
def nan : Float := 0.0 / 0.0

def infinity : Float := 1.0 / 0.0

def divide (a b : Float) : Float :=
  if b == 0.0 then nan else a / b

/-- The exact remainder of a division that rounds toward zero; it has the sign of `a`. -/
def truncatedRemainder (a b : Float) : Float :=
  if a.isNaN || b.isNaN || a.isInf || b == 0.0 then nan
  else if b.isInf then a
  else ofMagnitude (isNegative a) (nearest (units (magnitude a) % units (magnitude b)) 1)

/-- The remainder of a division that rounds down: it has the sign of `b`. -/
def remainder (a b : Float) : Float :=
  if b == 0.0 then nan
  else
    let r := truncatedRemainder a b
    if r != 0.0 && (decide (r < 0.0) != decide (b < 0.0)) then r + b else r

def squareRoot (a : Float) : Float :=
  if a < 0.0 then nan else a.sqrt

def naturalLog (a : Float) : Float :=
  if a ≤ 0.0 then nan else a.log

def decimalLog (a : Float) : Float :=
  if a ≤ 0.0 then nan else a.log10

def binaryLog (a : Float) : Float :=
  if a ≤ 0.0 then nan else a.log2

end Arithmetic

namespace Symbols

open Arithmetic

def operators : List (Char × (Float → Float → Float)) :=
  [('+', (· + ·)), ('-', (· - ·)), ('*', (· * ·)), ('/', divide), ('%', remainder),
  ('^', Float.pow)]

/-- The functions in the order of their names. -/
def functions : List (String × (Float → Float)) :=
  [("cos", Float.cos), ("lb", binaryLog), ("lg", decimalLog), ("ln", naturalLog),
  ("log", naturalLog), ("log10", decimalLog), ("log2", binaryLog), ("sin", Float.sin),
  ("sqrt", squareRoot), ("tan", Float.tan)]

/-- The constants in the order of their names. -/
def constants : List (String × Float) :=
  [("e", 2.718281828459045), ("inf", infinity), ("nan", nan), ("pi", 3.141592653589793),
  ("tau", 6.283185307179586)]

def operator? (op : Char) : Option (Float → Float → Float) :=
  operators.lookup op

/-- Functions are looked up by their exact name. -/
def function? (name : String) : Option (Float → Float) :=
  functions.lookup name

/-- Constants are looked up without regard to case. -/
def constant? (name : String) : Option Float :=
  constants.lookup (Text.lower name)

def functionNames : List String :=
  functions.map (·.1)

def constantNames : List String :=
  constants.map (·.1)

end Symbols

end ColumnCalc
