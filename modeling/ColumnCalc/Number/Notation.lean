import ColumnCalc.Number.Decimal
import ColumnCalc.Text.Characters

/-!
# How numbers are written and read

Every text of a finite number comes from its shortest decimal: `positional` writes the digits around
a point, `scientific` one digit, a point and a power of ten. `plain`, `cell`, `literal` and `json?`
are the four ways in which the output of this library spells a number.
-/

namespace ColumnCalc.Number

/-- Digits `d₁ … dₙ` and a place, standing for `0.d₁ … dₙ * 10 ^ place`. -/
structure Digits where
  digits : List Char
  place : Int
  deriving DecidableEq, Repr

namespace Digits

/-- The digits of a decimal without zeros at the end; zero keeps one digit. -/
def ofDecimal (d : Decimal) : Digits :=
  let all := Nat.toDigits 10 d.coefficient
  let kept := (all.reverse.dropWhile (· == '0')).reverse
  if kept.isEmpty then ⟨['0'], 1⟩ else ⟨kept, all.length + d.exponent⟩

/-- `12.5`, `0.004`, `1000`. -/
def positional (d : Digits) : List Char :=
  if d.place ≤ 0 then ['0', '.'] ++ List.replicate (-d.place).toNat '0' ++ d.digits
  else if d.digits.length ≤ d.place.toNat then
    d.digits ++ List.replicate (d.place.toNat - d.digits.length) '0'
  else d.digits.take d.place.toNat ++ ['.'] ++ d.digits.drop d.place.toNat

/-- `1.25e1`, `4e-3`, `1e3`; a power that is not negative is preceded by `plus`. -/
def scientific (plus : List Char) (d : Digits) : List Char :=
  let fraction := d.digits.drop 1
  let power := d.place - 1
  let sign := if power < 0 then ['-'] else plus
  d.digits.take 1 ++ (if fraction.isEmpty then [] else '.' :: fraction)
    ++ ['e'] ++ sign ++ Nat.toDigits 10 power.natAbs

end Digits

/-- The shortest digits of the magnitude of a finite number. -/
def digits (tie : Tie) (x : Float) : Digits :=
  .ofDecimal (.shortest tie (magnitude x))

/-- A minus sign in front of the text of a negative number. -/
def signed (x : Float) (text : List Char) : List Char :=
  if isNegative x then '-' :: text else text

/-- A finite number without a power of ten, however long. -/
def finitePlain (x : Float) : List Char :=
  signed x (digits .up x).positional

/-- A finite number with a power of ten. -/
def finiteScientific (x : Float) : List Char :=
  signed x ((digits .up x).scientific [])

/-- The text of a number in reports: `NaN` for no number. -/
def plain (x : Float) : List Char :=
  if x.isNaN then ['N', 'a', 'N']
  else if x.isInf then signed x ['i', 'n', 'f']
  else finitePlain x

/-- The text of a number in a table cell: as in reports, but `nan` for no number. -/
def cell (x : Float) : List Char :=
  if x.isNaN then ['n', 'a', 'n'] else plain x

/--
The text of a number in an expression. Infinities and `nan` are names of constants there, and of the
two texts of a finite number the scientific one is taken if it is shorter.
-/
def literal (x : Float) : List Char :=
  if x.isNaN then ['n', 'a', 'n']
  else if x.isInf then
    if isNegative x then ['(', '0', ' ', '-', ' ', 'i', 'n', 'f', ')'] else ['i', 'n', 'f']
  else if (finiteScientific x).length < (finitePlain x).length then finiteScientific x
  else finitePlain x

/--
The text of a number in JSON, none unless it is finite. Powers of ten from -5 to 15 are written
without exponent; the text shows by a point or an exponent that it is no integer type.
-/
def json? (x : Float) : Option (List Char) :=
  if x.isNaN || x.isInf then none
  else
    let d := digits .toEven x
    let text :=
      if d.place ≤ -5 || 16 < d.place then d.scientific ['+']
      else if (d.digits.length : Int) ≤ d.place then d.positional ++ ['.', '0']
      else d.positional
    some (signed x text)

/-!
## Reading a number

A numeral is an optional sign followed by `inf`, `infinity` or `nan` in any case, or by digits with
at most one point among or beside them and an optional power of ten. The value is the nearest
double.
-/

/-- The value of a string of ASCII digits, with the first digits before the others. -/
def digitsValue (ds : List Char) : Nat :=
  Nat.ofDigitChars 10 ds 0

/-- A whole number with an optional sign, and no other characters. -/
def readInt? (s : List Char) : Option Int :=
  let (negative, ds) :=
    match s with
    | '-' :: r => (true, r)
    | '+' :: r => (false, r)
    | r => (false, r)
  if ds.isEmpty || !ds.all Char.isDigit then none
  else some (if negative then -digitsValue ds else digitsValue ds)

/-- The part of a numeral after its mantissa: nothing, or `e` and a whole number. -/
def readPower? (s : List Char) : Option Int :=
  match s with
  | [] => some 0
  | c :: r => if c = 'e' || c = 'E' then readInt? r else none

/-- A numeral in digits, without its sign. -/
def readDecimal? (s : List Char) : Option Decimal :=
  let whole := s.takeWhile Char.isDigit
  let afterWhole := s.dropWhile Char.isDigit
  let (fraction, rest) :=
    match afterWhole with
    | '.' :: r => (r.takeWhile Char.isDigit, r.dropWhile Char.isDigit)
    | r => ([], r)
  if whole.isEmpty && fraction.isEmpty then none
  else
    (readPower? rest).map fun power => ⟨digitsValue (whole ++ fraction), power - fraction.length⟩

/-- The number that a text spells, none if it spells none. -/
def read? (s : List Char) : Option Float :=
  let (negative, body) :=
    match s with
    | '-' :: r => (true, r)
    | '+' :: r => (false, r)
    | r => (false, r)
  let word := Text.lower (.ofList body)
  if word = "inf" || word = "infinity" then some (ofMagnitude negative infinite)
  else if word = "nan" then some (0.0 / 0.0)
  else (readDecimal? body).map fun d => ofMagnitude negative d.toMagnitude

end ColumnCalc.Number
