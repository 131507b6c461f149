import CustomProperties.Text.Basic

/-!
# Decimals and doubles

Binary floating-point numbers of 64 bits, with the two infinities, the two zeros and the value that
is no number.  A double is made from a decimal by rounding to the nearest one, and it is shown by
the shortest decimal that rounds to it.

* `Decimal.inUnits`: a decimal counted in units of a power of two, which is how decimals and binary
  numbers are compared without rounding.
* `Decimal.text`: positional from 0.0001 up to, and without, `10 ^ 16`, and with an exponent beyond.
* `Decimal.nearest?`: the closest number with 53 binary digits and an exponent of at least -1074,
  in exact arithmetic; of two equally close ones it takes the even one.
* `Binary.shortest`: the decimal with the fewest digits that rounds to a double, and of those the
  closest.  The numbers that round to a double lie between the midpoints to its two neighbours, and
  the midpoints belong to them when the mantissa is even.  The decimal is found on the coarsest grid
  of multiples of a power of ten that has a point in the interval; if a grid has one, then one of
  the two points next to the double is one.
-/

namespace CustomProperties

/-- The number `digits * 10 ^ exponent`. -/
structure Decimal where
  digits : Nat
  exponent : Int
deriving DecidableEq

namespace Decimal

/-- A decimal in units of `2 ^ unit`, as a numerator and a denominator. -/
def inUnits (d : Decimal) (unit : Int) : Nat × Nat :=
  (d.digits * Nat.pow 10 d.exponent.toNat * Nat.pow 2 (-unit).toNat,
    Nat.pow 10 (-d.exponent).toNat * Nat.pow 2 unit.toNat)

/-- Where the point stands, counted from the left end of the digits: the number is below ten to
this power and, unless it is zero, at least a tenth of that. -/
def point (d : Decimal) : Int := (Text.ofNat d.digits).length + d.exponent

def zeros (n : Int) : Text := List.replicate n.toNat '0'

def padded (width : Nat) (digits : Text) : Text := zeros (width - digits.length) ++ digits

/-- Digits with the point before, inside or after them.  At least one digit stands on each side of
the point. -/
def positional (digits : Text) (point : Int) : Text :=
  padded 1 (digits.take point.toNat ++ zeros (point - digits.length))
    ++ ("." ++ padded 1 (zeros (-point) ++ digits.drop point.toNat))

/-- Digits with the point after the first and an exponent of at least two digits.  A digit alone
stands without a point. -/
def scientific (digits : Text) (exponent : Int) : Text :=
  let fraction : Text := if digits.length ≤ 1 then [] else "." ++ digits.drop 1
  let sign : Text := if exponent < 0 then "-" else "+"
  digits.take 1 ++ fraction ++ "e" ++ sign ++ padded 2 (Text.ofNat exponent.natAbs)

def text (d : Decimal) : Text :=
  if -4 < d.point ∧ d.point ≤ 16 then positional (Text.ofNat d.digits) d.point
  else scientific (Text.ofNat d.digits) (d.point - 1)

end Decimal

/-! ## The nearest double -/

/-- The number `mantissa * 2 ^ exponent`. -/
structure Binary where
  mantissa : Nat
  exponent : Int
deriving DecidableEq

namespace Binary

def mantissaBound : Nat := 0x20000000000000

def leastExponent : Int := -1074

def greatestExponent : Int := 971

end Binary

/-- A quotient rounded to the nearest natural number, and a half to the even one. -/
def roundDiv (n d : Nat) : Nat :=
  if 2 * (n % d) < d ∨ (2 * (n % d) = d ∧ n / d % 2 = 0) then n / d else n / d + 1

namespace Decimal

/-- The greatest power of two that is not above a decimal other than zero. -/
def binaryOrder (d : Decimal) : Int :=
  let ratio := d.inUnits 0
  let order := (Nat.log2 ratio.1 : Int) - Nat.log2 ratio.2
  let ratio := d.inUnits order
  if ratio.1 < ratio.2 then order - 1 else order

/-- The double nearest to a decimal, if it is not beyond them all.

A decimal of `10 ^ 309` or more is beyond every double, and one below `10 ^ (-324)` is nearest to
zero; both are told by the place of the point, however large the exponent. -/
def nearest? (d : Decimal) : Option Binary :=
  if d.digits = 0 ∨ d.point < -323 then some ⟨0, Binary.leastExponent⟩
  else if 309 < d.point then none
  else
    let unit := max Binary.leastExponent (d.binaryOrder - 52)
    let ratio := d.inUnits unit
    let mantissa := roundDiv ratio.1 ratio.2
    let nearest : Binary :=
      if mantissa = Binary.mantissaBound then ⟨mantissa / 2, unit + 1⟩ else ⟨mantissa, unit⟩
    if Binary.greatestExponent < nearest.exponent then none else some nearest

end Decimal

/-! ## The shortest decimal -/

namespace Binary

/-- A mantissa at its least, above which the doubles lie twice as far apart as below. -/
def isStep (b : Binary) : Bool :=
  2 * b.mantissa = mantissaBound && leastExponent < b.exponent

def readsBack (b : Binary) (d : Decimal) : Bool :=
  let quarters := d.inUnits (b.exponent - 2)
  let low := (if b.isStep then 4 * b.mantissa - 1 else 4 * b.mantissa - 2) * quarters.2
  let high := (4 * b.mantissa + 2) * quarters.2
  if b.mantissa % 2 = 0 then low ≤ quarters.1 && quarters.1 ≤ high
  else low < quarters.1 && quarters.1 < high

/-- The two multiples of `10 ^ exponent` next to a double, the closer first.  Of two equally close
ones the even one comes first. -/
def neighbours (b : Binary) (exponent : Int) : List Decimal :=
  let grid := Decimal.inUnits ⟨1, exponent⟩ b.exponent
  let below := b.mantissa * grid.2 / grid.1
  if roundDiv (b.mantissa * grid.2) grid.1 = below then [⟨below, exponent⟩, ⟨below + 1, exponent⟩]
  else [⟨below + 1, exponent⟩, ⟨below, exponent⟩]

def decimalBound (b : Binary) : Int :=
  ((Nat.log2 b.mantissa + 1 + b.exponent) * 30103).fdiv 100000 + 2

def exactly (b : Binary) : Decimal :=
  ⟨b.mantissa * Nat.pow 2 b.exponent.toNat * Nat.pow 5 (-b.exponent).toNat, min 0 b.exponent⟩

/-- The shortest decimal that rounds to a double.  Seventeen digits always suffice, which the grids
down from the bound of the double cover. -/
def shortest (b : Binary) : Decimal :=
  if b.mantissa = 0 then ⟨0, 0⟩
  else
    let grids := (List.range 22).map fun (n : Nat) => b.decimalBound - n
    (grids.findSome? fun exponent => (b.neighbours exponent).find? b.readsBack).getD b.exactly

end Binary

/-! ## Doubles -/

inductive Double
  | finite (negative : Bool) (size : Binary)
  | infinite (negative : Bool)
  | notANumber
deriving DecidableEq

namespace Double

def ofDecimal (negative : Bool) (size : Decimal) : Double :=
  match size.nearest? with
  | some nearest => finite negative nearest
  | none => infinite negative

def sign (negative : Bool) : Text := if negative then "-" else ""

def text (infinity noNumber : Text) : Double → Text
  | finite negative size => sign negative ++ size.shortest.text
  | infinite negative => sign negative ++ infinity
  | notANumber => noNumber

end Double

end CustomProperties
