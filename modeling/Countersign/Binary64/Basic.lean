import Countersign.Decimal

/-! Binary floating-point numbers of 64 bits, held as their bits and read exactly: every finite one
is a whole number of units of 2^-1074, so comparison, rounding and the conversions to whole numbers
are arithmetic on integers. -/

namespace Countersign

/-- A binary64 number: a sign bit, eleven bits of exponent and 52 bits of fraction. -/
structure Binary64 where
  bits : UInt64
deriving DecidableEq

namespace Binary64

instance : Inhabited Binary64 := ⟨⟨0⟩⟩

/-- The number of fractions there are. -/
def fractionSize : Nat := Nat.pow 2 52

/-- The bits of negative zero. -/
def signBit : Nat := Nat.pow 2 63

/-- The bits of infinity. -/
def infinityBits : Nat := 2047 * fractionSize

def negative (x : Binary64) : Bool := signBit ≤ x.bits.toNat

def exponentField (x : Binary64) : Nat := x.bits.toNat / fractionSize % 2048

def fractionField (x : Binary64) : Nat := x.bits.toNat % fractionSize

/-- Neither infinite nor a NaN. -/
def isFinite (x : Binary64) : Bool := x.exponentField ≠ 2047

def isNaN (x : Binary64) : Bool := x.exponentField = 2047 ∧ x.fractionField ≠ 0

/-- The fraction with the leading bit that a normal number leaves unwritten. -/
def significand (x : Binary64) : Nat :=
  if x.exponentField = 0 then x.fractionField else fractionSize + x.fractionField

/-- The absolute value in units of 2^-1074. An infinity counts as 2^1024, which is above every
finite number. -/
def magnitude (x : Binary64) : Nat := x.significand * Nat.pow 2 (max x.exponentField 1 - 1)

/-- The value in units of 2^-1074. -/
def units (x : Binary64) : Int := if x.negative then -x.magnitude else x.magnitude

/-- The number of units in one. -/
def one : Nat := Nat.pow 2 1074

def zero : Binary64 := ⟨0⟩

/-- The order of values. A NaN is neither above nor below anything, and both zeros are equal. -/
def lt (x y : Binary64) : Bool := !x.isNaN && !y.isNaN && decide (x.units < y.units)

def le (x y : Binary64) : Bool := !x.isNaN && !y.isNaN && decide (x.units ≤ y.units)

/-- A finite number without a fractional part. -/
def isWhole (x : Binary64) : Bool := x.isFinite && x.magnitude % one = 0

/-- The absolute value without its fractional part. -/
def wholePart (x : Binary64) : Nat := x.magnitude / one

/-- The whole number nearest to the absolute value, halves going up. -/
def roundHalfUp (x : Binary64) : Nat := (2 * x.magnitude + one) / (2 * one)

theorem natAbs_units (x : Binary64) : x.units.natAbs = x.magnitude := by
  unfold units
  split <;> simp

/-- A whole number is a multiple of the units in one. -/
theorem isWhole_iff {x : Binary64} :
    x.isWhole = true ↔ x.isFinite = true ∧ (one : Int) ∣ x.units := by
  rw [isWhole, Bool.and_eq_true, decide_eq_true_eq, ← Nat.dvd_iff_mod_eq_zero, ← natAbs_units,
    ← Int.natAbs_dvd_natAbs, Int.natAbs_natCast]

theorem isNaN_eq_false_of_isFinite {x : Binary64} (h : x.isFinite = true) : x.isNaN = false := by
  simp_all [isFinite, isNaN]

theorem lt_irrefl (x : Binary64) : x.lt x = false := by simp [lt]

theorem le_of_lt {x y : Binary64} (h : x.lt y = true) : x.le y = true := by
  simp only [lt, le, Bool.and_eq_true, decide_eq_true_eq] at *
  exact ⟨h.1, by omega⟩

/-- Finite numbers are ordered as their units are. -/
theorem lt_iff {x y : Binary64} (hx : x.isFinite = true) (hy : y.isFinite = true) :
    x.lt y = true ↔ x.units < y.units := by
  simp [lt, isNaN_eq_false_of_isFinite hx, isNaN_eq_false_of_isFinite hy]

theorem le_iff {x y : Binary64} (hx : x.isFinite = true) (hy : y.isFinite = true) :
    x.le y = true ↔ x.units ≤ y.units := by
  simp [le, isNaN_eq_false_of_isFinite hx, isNaN_eq_false_of_isFinite hy]

end Binary64

end Countersign
