import FluentShapes.Numeral.Shortest

/-! # Numerals in texts -/

namespace FluentShapes

/-- A decimal number as it can be written: `coefficient * 10 ^ exponent` with a sign. -/
structure Numeral where
  negative : Bool
  coefficient : Nat
  exponent : Int
deriving DecidableEq

namespace Numeral

/-- The value of a list of decimal digits. -/
def digitsValue (digits : List Char) : Nat :=
  digits.foldl (fun n c ↦ 10 * n + (c.toNat - '0'.toNat)) 0

/-- Split a sign off a text: whether it is a minus, and the rest. -/
def splitSign : List Char → Bool × List Char
  | '-' :: s => (true, s)
  | '+' :: s => (false, s)
  | s => (false, s)

/-- The exponent mark, an optional sign and at least one digit up to the end, or nothing. -/
def exponent? : List Char → Option Int
  | [] => some 0
  | c :: s =>
      let (negative, digits) := splitSign s
      if (c = 'e' || c = 'E') && !digits.isEmpty && digits.all Char.isDigit then
        some (if negative then -digitsValue digits else digitsValue digits)
      else none

/-- A sign, digits with a point among or around them, and an exponent. Only the digits are
mandatory. -/
def parse? (text : String) : Option Numeral :=
  let (negative, s) := splitSign text.toList
  let whole := s.takeWhile Char.isDigit
  let s := s.dropWhile Char.isDigit
  let (fraction, s) :=
    match s with
    | '.' :: s => (s.takeWhile Char.isDigit, s.dropWhile Char.isDigit)
    | s => ([], s)
  if (whole ++ fraction).isEmpty then none
  else
    (exponent? s).map fun exponent ↦
      ⟨negative, digitsValue (whole ++ fraction), exponent - fraction.length⟩

/-- The numeral that is written for what a text is read as, in positional notation: the shortest that
reads back, with the sign of zero. `none` if the text is read as no finite number. -/
def normalize? (text : String) : Option String := do
  let n ← parse? text
  let units ← Binary64.ofDecimal? n.coefficient n.exponent
  let magnitude := if units = 0 then ['0'] else (Binary64.shortest units).render
  pure (String.ofList (if n.negative then '-' :: magnitude else magnitude))

end Numeral

end FluentShapes
