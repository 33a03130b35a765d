import ColumnCalc.Expr.Fault
import ColumnCalc.Expr.Scan
import ColumnCalc.Number.Notation

/-!
# Literals

A literal is written with an optional sign, digits, an optional fraction and an optional power of
ten. Its value is put together in floating point from the values of these parts, so it may differ
from the nearest double by rounding.
-/

namespace ColumnCalc

open Number (digitsValue)

/-- A literal as it is written. A part that is missing is empty. -/
structure Literal where
  negative : Bool
  whole : List Char
  fraction : List Char
  powerNegative : Bool
  power : List Char
  deriving DecidableEq, Repr

namespace Literal

/-- The value of a string of digits, each step rounded. -/
def digitsFloat (ds : List Char) : Float :=
  ds.foldl (fun acc d => acc * 10.0 + Float.ofNat (d.toNat - '0'.toNat)) 0.0

/-- The value of the digits behind a point: their value divided by ten once for each of them. -/
def fractionFloat (ds : List Char) : Float :=
  ds.foldl (fun acc _ => acc / 10.0) (digitsFloat ds)

/-- `result * base ^ n`, by squaring the base from the lowest binary digit of `n` on. -/
def bySquaring (result base : Float) (n : Nat) : Float :=
  if n = 0 then result
  else bySquaring (if n % 2 = 1 then result * base else result) (base * base) (n / 2)

/-- `10 ^ n`, or its reciprocal. Every exponent from `2 ^ 31 - 1` on counts as that one. -/
def powerOfTen (negative : Bool) (n : Nat) : Float :=
  let p := bySquaring 1.0 10.0 (min n (Nat.pow 2 31 - 1))
  if negative then 1.0 / p else p

/-- `sign * (whole + fraction) * 10 ^ power`; a mantissa of zero stays zero whatever the power. -/
def value (l : Literal) : Float :=
  let sign : Float := if l.negative then -1.0 else 1.0
  let mantissa := digitsFloat l.whole + fractionFloat l.fraction
  if mantissa == 0.0 then sign * 0.0
  else sign * mantissa * powerOfTen l.powerNegative (digitsValue l.power)

/-- An optional sign, true for a minus, and what follows it. -/
def sign (s : List Char) : Bool × List Char :=
  match s with
  | '-' :: r => (true, r)
  | '+' :: r => (false, r)
  | r => (false, r)

theorem length_sign_le (s : List Char) : (sign s).2.length ≤ s.length := by
  unfold sign
  split <;> simp

/-- The digits of a part of a literal. -/
def digits (part : LiteralPart) (s : List Char) : Except ParseError (Parsed (List Char) s) :=
  match Scan.digits? s with
  | some p => .ok p
  | none => .error (.single (.literal part) s)

/-- A point with its digits, if there is one. -/
def fractionPart (s : List Char) :
    Except ParseError { p : List Char × List Char // p.2.length ≤ s.length } :=
  match Scan.char? '.' s with
  | none => .ok ⟨([], s), Nat.le_refl _⟩
  | some dot => do
    let ds ← digits .fraction dot.rest
    pure ⟨(ds.value, ds.rest), Nat.le_of_lt (Nat.lt_trans ds.rest_lt dot.rest_lt)⟩

/-- An `e` with its sign and digits, if there is one. -/
def powerPart (s : List Char) :
    Except ParseError { p : (Bool × List Char) × List Char // p.2.length ≤ s.length } :=
  match Scan.char? 'e' s with
  | none => .ok ⟨((false, []), s), Nat.le_refl _⟩
  | some mark => do
    let signed := sign mark.rest
    let ds ← digits .exponent signed.2
    pure ⟨((signed.1, ds.value), ds.rest), Nat.le_of_lt <| Nat.lt_trans
      (Nat.lt_of_lt_of_le ds.rest_lt (length_sign_le _)) mark.rest_lt⟩

/-- A literal at the front of a text. -/
def parse (s : List Char) : Except ParseError (Parsed Literal s) := do
  let signed := sign s
  let whole ← digits .whole signed.2
  let fraction ← fractionPart whole.rest
  let power ← powerPart fraction.1.2
  pure ⟨⟨signed.1, whole.value, fraction.1.1, power.1.1.1, power.1.1.2⟩, power.1.2,
    Nat.lt_of_le_of_lt (Nat.le_trans power.2 fraction.2)
      (Nat.lt_of_lt_of_le whole.rest_lt (length_sign_le s))⟩

end Literal

end ColumnCalc
