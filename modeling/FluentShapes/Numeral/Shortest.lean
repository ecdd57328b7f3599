import FluentShapes.Numeral.Binary64

/-! # The shortest numeral of a magnitude

The fewest digits that read back as the same magnitude: on the coarsest decimal grid that has such a
number, the one nearest to the magnitude. Of two nearest the greater one is taken.
-/

namespace FluentShapes

/-! ## Decimal numerals -/

/-- The number `coefficient / 10 ^ places`. -/
structure Decimal where
  coefficient : Nat
  places : Nat
deriving DecidableEq

namespace Decimal

/-- Take the zeros off the end of the fraction. -/
def trim (coefficient : Nat) : Nat → Decimal
  | 0 => ⟨coefficient, 0⟩
  | places + 1 =>
      if coefficient % 10 = 0 then trim (coefficient / 10) places else ⟨coefficient, places + 1⟩

/-- Digits before the point, and after it if there is a fraction. -/
def render (d : Decimal) : List Char :=
  let whole := Nat.toDigits 10 (d.coefficient / Nat.pow 10 d.places)
  if d.places = 0 then whole
  else
    let fraction := Nat.toDigits 10 (d.coefficient % Nat.pow 10 d.places)
    whole ++ '.' :: (List.replicate (d.places - fraction.length) '0' ++ fraction)

end Decimal

namespace Binary64

/-! ## The shortest one -/

def exact (units : Nat) : Decimal := .trim (units * Nat.pow 5 unitBits) unitBits

/-- A numeral stands for a magnitude if it is read as that magnitude. -/
def reads (units : Nat) (d : Decimal) : Bool := ofDecimal? d.coefficient (-d.places) = some units

/-- The two multiples of `num / den` units around a magnitude, the nearer one first. -/
def neighbours (units num den : Nat) : List Nat :=
  let below := units * den / num
  if 2 * (units * den) < (2 * below + 1) * num then [below, below + 1] else [below + 1, below]

/-- A multiple of `10 ^ zeros` that reads back. -/
def onWholeGrid? (units zeros : Nat) : Option Decimal :=
  ((neighbours units (Nat.pow 2 unitBits * Nat.pow 10 zeros) 1).map fun n ↦
    ⟨n * Nat.pow 10 zeros, 0⟩).find? (reads units)

/-- A multiple of `10 ^ (-places)` that reads back. -/
def onFractionGrid? (units places : Nat) : Option Decimal :=
  ((neighbours units (Nat.pow 2 unitBits) (Nat.pow 10 places)).map fun n ↦
    .trim n places).find? (reads units)

/-- The coarsest grid goes first. No grid is coarser than the power of ten above the magnitude, and
the finest holds every magnitude. -/
def shortest (units : Nat) : Decimal :=
  let order := decimalLength (units / Nat.pow 2 unitBits)
  let whole := (List.range (order + 1)).reverse.findSome? (onWholeGrid? units)
  (whole.orElse fun _ ↦
    (List.range unitBits).findSome? fun places ↦ onFractionGrid? units (places + 1)).getD
      (exact units)

end Binary64

end FluentShapes
