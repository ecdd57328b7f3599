/-! # Binary floating point numbers of 64 bits

A finite magnitude is a whole number of units of `2 ^ (-1074)`, the least positive one. Of those that
need more than 53 bits only the multiples of a power of two are representable.
-/

namespace FluentShapes.Binary64

/-- The exponent of the unit, without its sign. -/
def unitBits : Nat := 1074

/-- The number of bits of a significand. -/
def precision : Nat := 53

/-- The finite magnitudes are below `2 ^ 1024`. -/
def limit : Nat := Nat.pow 2 (1024 + unitBits)

/-- The whole number nearest to a quotient; of two nearest, the even one. -/
def roundDiv (num den : Nat) : Nat :=
  let q := num / den
  let r := num % den
  if 2 * r < den then q else if den < 2 * r then q + 1 else q + q % 2

/-- The distance between representable neighbours just above `units` units. -/
def spacing (units : Nat) : Nat := Nat.pow 2 (units.log2 + 1 - precision)

/-- The representable number nearest to `num / den`, in units, with no bound from above. -/
def nearest (num den : Nat) : Nat :=
  let scaled := num * Nat.pow 2 unitBits
  let step := spacing (scaled / den)
  roundDiv scaled (den * step) * step

/-- Decimal digits that a number takes. -/
def decimalLength (n : Nat) : Nat := (Nat.toDigits 10 n).length

/-- The magnitude of `coefficient * 10 ^ exponent`, or `none` if it is not finite. Far outside the
range of magnitudes the power of ten is not computed. -/
def ofDecimal? (coefficient : Nat) (exponent : Int) : Option Nat :=
  let order := decimalLength coefficient + exponent
  if coefficient = 0 || order < -330 then some 0
  else if 310 < order then none
  else
    let units := nearest (coefficient * Nat.pow 10 exponent.toNat) (Nat.pow 10 (-exponent).toNat)
    if units < limit then some units else none

end FluentShapes.Binary64
