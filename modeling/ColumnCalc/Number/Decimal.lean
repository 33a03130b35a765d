/-!
# Doubles and decimals

A finite double is a whole number of units of `2^-1074`, and a decimal a whole number times a power
of ten. `Decimal.toMagnitude` rounds a decimal to the nearest double, `Decimal.shortest` finds the
decimal of fewest digits that rounds to a given one.
-/

namespace ColumnCalc.Number

/-!
## Finite doubles as whole numbers of units

A unit is `2^-1074`, the least positive double: every finite double is a whole number of units, with
a sign. A magnitude is the bit pattern of a double without its sign; magnitudes are ordered as the
numbers they stand for, from zero up to `infinite`. `nearest` rounds any fraction of units to a
magnitude, a half going to the even neighbour.
-/

/-- A unit is this negative power of two. -/
@[irreducible]
def places : Nat := 1074

theorem places_eq : places = 1074 := by
  unfold places
  rfl

/-- The magnitude of the infinities; those above it belong to NaN. -/
def infinite : Nat := 0x7ff * Nat.pow 2 52

/-- Units of the number with a finite magnitude. -/
def units (magnitude : Nat) : Nat :=
  let exponent := magnitude / Nat.pow 2 52
  let fraction := magnitude % Nat.pow 2 52
  if exponent = 0 then fraction else (fraction + Nat.pow 2 52) * Nat.pow 2 (exponent - 1)

/-- The whole number nearest to `num / den`, a half going to the even one. -/
def roundDiv (num den : Nat) : Nat :=
  let q := num / den
  let r := num % den
  if 2 * r < den then q else if den < 2 * r then q + 1 else q + q % 2

/-- The magnitude nearest to `num / den` units. -/
def nearest (num den : Nat) : Nat :=
  let scale := (num / den).log2 - 52
  min (scale * Nat.pow 2 52 + roundDiv num (den * Nat.pow 2 scale)) infinite

/-- The sign bit. -/
def isNegative (x : Float) : Bool :=
  Nat.pow 2 63 ≤ x.toBits.toNat

def magnitude (x : Float) : Nat :=
  x.toBits.toNat % Nat.pow 2 63

/-- The double with a sign and a magnitude. -/
def ofMagnitude (negative : Bool) (magnitude : Nat) : Float :=
  .ofBits (.ofNat (if negative then Nat.pow 2 63 + magnitude else magnitude))

/-! ## Decimals -/

/-- The number `coefficient * 10 ^ exponent`. -/
structure Decimal where
  coefficient : Nat
  exponent : Int
  deriving DecidableEq, Repr

/-- Which of two equally near decimals is taken. -/
inductive Tie where
  | up
  | toEven
  deriving DecidableEq, Repr

namespace Decimal

/-- Clearly beyond the largest double. -/
def isHuge (d : Decimal) : Bool :=
  400 < d.exponent

/-- Clearly below half the least double: a power of ten is more than three powers of two. -/
def isTiny (d : Decimal) : Bool :=
  d.exponent < 0 && d.coefficient.log2 + 1100 < 3 * d.exponent.natAbs

/--
The magnitude nearest to a decimal. The first three cases spare the powers of ten that cannot
matter.
-/
def toMagnitude (d : Decimal) : Nat :=
  if d.coefficient = 0 then 0
  else if d.isHuge then infinite
  else if d.isTiny then 0
  else if 0 ≤ d.exponent then
    nearest (d.coefficient * Nat.pow 10 d.exponent.natAbs * Nat.pow 2 places) 1
  else nearest (d.coefficient * Nat.pow 2 places) (Nat.pow 10 d.exponent.natAbs)

/--
All digits of a finite magnitude. It is a whole number times a power of two; a negative power of two
is the same power of ten times a power of five.
-/
def exact (magnitude : Nat) : Decimal :=
  let exponent := magnitude / Nat.pow 2 52
  let fraction := magnitude % Nat.pow 2 52
  if exponent = 0 then ⟨fraction * Nat.pow 5 places, -(places : Nat)⟩
  else if exponent ≤ places then
    ⟨(fraction + Nat.pow 2 52) * Nat.pow 5 (places + 1 - exponent), -(places + 1 - exponent : Nat)⟩
  else ⟨(fraction + Nat.pow 2 52) * Nat.pow 2 (exponent - 1 - places), 0⟩

/-- The decimal cut off at its last `dropped` digits. -/
def truncate (d : Decimal) (dropped : Nat) : Decimal :=
  ⟨d.coefficient / Nat.pow 10 dropped, d.exponent + dropped⟩

/-- The next decimal with the same exponent. -/
def succ (d : Decimal) : Decimal :=
  ⟨d.coefficient + 1, d.exponent⟩

/-- Whether cutting off `dropped` digits of `d` is to be followed by a step up. -/
def roundsUp (tie : Tie) (d : Decimal) (dropped : Nat) : Bool :=
  let rest := d.coefficient % Nat.pow 10 dropped
  if 2 * rest = Nat.pow 10 dropped then
    match tie with
    | .up => true
    | .toEven => d.coefficient / Nat.pow 10 dropped % 2 = 1
  else Nat.pow 10 dropped < 2 * rest

/--
The neighbour of `d` with `dropped` digits less that reads back as `magnitude`, the nearer one if
both do.
-/
def neighbour? (tie : Tie) (magnitude : Nat) (d : Decimal) (dropped : Nat) : Option Decimal :=
  let low := d.truncate dropped
  let high := low.succ
  let near := if d.roundsUp tie dropped then high else low
  let far := if d.roundsUp tie dropped then low else high
  if near.toMagnitude = magnitude then some near
  else if far.toMagnitude = magnitude then some far
  else none

/-- The number of decimal digits, one for zero; counted from the right in groups. -/
def digitCount (n : Nat) : Nat :=
  if n < Nat.pow 10 16 then (Nat.toDigits 10 n).length else digitCount (n / Nat.pow 10 16) + 16
termination_by n
decreasing_by
  rename_i h
  have hpos : 0 < n := Nat.lt_of_lt_of_le (by decide) (Nat.le_of_not_lt h)
  exact Nat.div_lt_self hpos (by decide)

/-- The decimal of fewest digits that reads back as `magnitude`, and of those the nearest. -/
def shortest (tie : Tie) (magnitude : Nat) : Decimal :=
  let all := exact magnitude
  let count := digitCount all.coefficient
  let found := (List.range count).findSome? fun kept =>
    neighbour? tie magnitude all (count - kept - 1)
  found.getD all

end Decimal

end ColumnCalc.Number
