import Countersign.Binary64.Basic

/-! The binary64 number nearest to a fraction, of two equally near ones the one with an even
significand, and from it the readings of integers and decimals and the rounded products and
quotients. -/

namespace Countersign.Binary64

/-- `num / den` to the nearest whole number, halves going to the even one. -/
def divHalfEven (num den : Nat) : Nat :=
  let q := num / den
  let r := num % den
  if 2 * r < den then q else if den < 2 * r then q + 1 else q + q % 2

/-- How many low bits a number of `units` has beyond the 53 of a significand. -/
def surplusBits (units : Nat) : Nat := units.log2 - 52

/-- The bits of the number nearest to `num / den`. A significand that rounds up to 2^53 carries
into the exponent, and what is above the largest finite number carries into infinity. -/
def nearestBits (num den : Nat) : Nat :=
  let surplus := surplusBits (num * one / den)
  min (surplus * fractionSize + divHalfEven (num * one) (den * Nat.pow 2 surplus)) infinityBits

/-- The number with the given sign and remaining bits. -/
def signed (negative : Bool) (bits : Nat) : Binary64 :=
  ⟨UInt64.ofNat ((if negative then signBit else 0) + bits)⟩

/-- The number nearest to `num / den`, or to its negation. -/
def nearest (negative : Bool) (num den : Nat) : Binary64 := signed negative (nearestBits num den)

def ofInt (i : Int) : Binary64 := nearest (i < 0) i.natAbs 1

/-- The number nearest to `coefficient * 10 ^ scale`. Coefficients far out of range are not
multiplied out. -/
def ofDecimal (negative : Bool) (coefficient : Nat) (scale : Int) : Binary64 :=
  let size := (Decimal.digits coefficient).length + scale
  if coefficient = 0 ∨ size < -400 then signed negative 0
  else if 400 < size then signed negative infinityBits
  else if scale < 0 then nearest negative coefficient (Nat.pow 10 scale.natAbs)
  else nearest negative (coefficient * Nat.pow 10 scale.natAbs) 1

def times (x : Binary64) (k : Nat) : Binary64 := nearest x.negative (x.magnitude * k) one

/-- The product of two finite numbers. -/
def mul (x y : Binary64) : Binary64 :=
  nearest (x.negative != y.negative) (x.magnitude * y.magnitude) (one * one)

/-- The quotient of two finite numbers, of which the second is not zero. -/
def div (x y : Binary64) : Binary64 :=
  nearest (x.negative != y.negative) x.magnitude y.magnitude

end Countersign.Binary64
