import Countersign.Binary64.Nearest

/-! Decimals for binary64 numbers: the shortest one that reads back as the same number, and its
layout as a written number. -/

namespace Countersign.Binary64

/-- Which of two equally near decimals of the same length is taken. -/
inductive Tie where
  /-- The larger absolute value. -/
  | up
  /-- The one whose last digit is even. -/
  | even
deriving DecidableEq

/-- A positive decimal: a coefficient and the power of ten it is multiplied by. -/
structure Decimal where
  coefficient : Nat
  scale : Int
deriving DecidableEq

namespace Decimal

/-- The same decimal without zeros at the end of its coefficient. -/
def reduced (d : Decimal) : Decimal :=
  if d.coefficient ≠ 0 ∧ d.coefficient % 10 = 0 then reduced ⟨d.coefficient / 10, d.scale + 1⟩
  else d
termination_by d.coefficient
decreasing_by exact Nat.div_lt_self (by omega) (by decide)

/-- The number that `d`, with a sign, reads as. -/
def read (negative : Bool) (d : Decimal) : Binary64 := ofDecimal negative d.coefficient d.scale

end Decimal

/-- The exponent of ten of the first digit of a finite number other than zero. -/
def decimalExponent (x : Binary64) : Int :=
  (Countersign.Decimal.digits (x.magnitude * Nat.pow 10 330 / one)).length - 331

/-- The absolute value in steps of `10 ^ scale`, as a fraction. -/
def inSteps (x : Binary64) (scale : Int) : Nat × Nat :=
  if scale < 0 then (x.magnitude * Nat.pow 10 scale.natAbs, one)
  else (x.magnitude, one * Nat.pow 10 scale.natAbs)

/-- The nearer to `x` of the decimals just below and just above it with the given scale. -/
def nearestDecimal (tie : Tie) (x : Binary64) (scale : Int) : Decimal :=
  let (num, den) := x.inSteps scale
  let below := num / den
  let rest := num % den
  if 2 * rest < den then ⟨below, scale⟩
  else if den < 2 * rest then ⟨below + 1, scale⟩
  else match tie with
    | .up => ⟨below + 1, scale⟩
    | .even => ⟨below + below % 2, scale⟩

/-- The decimal with the given scale that reads back as `x`: of the two around `x` the nearer one,
or else the other. -/
def decimalAt? (tie : Tie) (x : Binary64) (scale : Int) : Option Decimal :=
  let (num, den) := x.inSteps scale
  [x.nearestDecimal tie scale, ⟨num / den, scale⟩, ⟨num / den + 1, scale⟩].find?
    fun d => d.read x.negative = x

/-- The decimal that is equal to a finite `x`. -/
def exactDecimal (x : Binary64) : Decimal := ⟨x.magnitude * Nat.pow 5 1074, -1074⟩

/-- The decimal with the fewest digits that reads back as a finite `x`. No number needs more than
17 digits. -/
def shortest (tie : Tie) (x : Binary64) : Decimal :=
  if x.magnitude = 0 then ⟨0, 0⟩
  else
    let first := x.decimalExponent
    (((List.range 17).findSome? fun count : Nat => x.decimalAt? tie (first - count)).getD
      x.exactDecimal).reduced

/-- How finite numbers are written. -/
structure Layout where
  tie : Tie
  /-- Whether a number is written without an exponent, by the exponent of its first digit. -/
  positional : Int → Bool
  /-- Whether a whole number gets a point and a zero. -/
  pointZero : Bool

/-- A finite number as it is written. -/
def Layout.numeral (layout : Layout) (x : Binary64) : Numeral :=
  let d := x.shortest layout.tie
  let size := (Countersign.Decimal.digits d.coefficient).length
  let exponent := d.scale + size - 1
  if layout.positional exponent then
    if 0 ≤ d.scale then
      ⟨x.negative, d.coefficient * Nat.pow 10 d.scale.natAbs,
        if layout.pointZero then [Digit.zero] else [], none⟩
    else
      ⟨x.negative, d.coefficient / Nat.pow 10 d.scale.natAbs,
        Countersign.Decimal.padded d.scale.natAbs d.coefficient, none⟩
  else
    ⟨x.negative, d.coefficient / Nat.pow 10 (size - 1),
      Countersign.Decimal.padded (size - 1) d.coefficient, some exponent⟩

end Countersign.Binary64
