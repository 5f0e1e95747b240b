import Countersign.Binary64.Nearest
import Countersign.Word

/-! Safety ratios for gas figures, in thousandths, so that a scaled figure is exact until it is
rounded down or up. -/

namespace Countersign

/-- A factor for gas figures, in thousandths. -/
structure GasRatio where
  milli : UInt32
deriving DecidableEq

namespace GasRatio

def one : GasRatio := ⟨1000⟩

/-- The safety ratio of one and a half. -/
def standard : GasRatio := ⟨1500⟩

/-- The thousandths as a wide word. -/
def wide (r : GasRatio) : BitVec 128 := BitVec.ofNat 128 r.milli.toNat

/-- `gas` times the ratio, rounded down. -/
def floorOf (r : GasRatio) (gas : UInt64) : UInt64 :=
  Word.cap (Word.wide gas * r.wide / 1000).toNat

/-- `gas` times the ratio, rounded up. -/
def ceilOf (r : GasRatio) (gas : UInt64) : UInt64 :=
  Word.cap (Word.ceilDiv (Word.wide gas * r.wide) 1000).toNat

instance : Min GasRatio := ⟨fun r s => if s.milli < r.milli then s else r⟩

/-- The ratio nearest to `x`, halves going up, if it is positive and below 2^32 thousandths. -/
def ofBinary64? (x : Binary64) : Option GasRatio :=
  if x.isFinite && Binary64.zero.lt x then
    let milli := (x.times 1000).roundHalfUp
    if 1 ≤ milli ∧ milli < UInt32.size then some ⟨UInt32.ofNat milli⟩ else none
  else none

/-- The ratio as a number: the whole part, and up to three digits after a point if there are any. -/
def numeral (r : GasRatio) : Numeral :=
  ⟨false, r.milli.toNat / 1000, Decimal.trimmed (Decimal.padded 3 (r.milli.toNat % 1000)), none⟩

def text (r : GasRatio) : String := String.ofList r.numeral.text

@[simp] theorem toNat_wide (r : GasRatio) : r.wide.toNat = r.milli.toNat := by
  have := r.milli.toNat_lt
  simp only [wide, BitVec.toNat_ofNat]
  omega

/-- A gas figure times a ratio fits a wide word. -/
theorem toNat_wide_mul (r : GasRatio) (gas : UInt64) :
    (Word.wide gas * r.wide).toNat = gas.toNat * r.milli.toNat := by
  have hg := gas.toNat_lt
  have hr := r.milli.toNat_lt
  rw [BitVec.toNat_mul, toNat_wide, Word.toNat_wide]
  exact Nat.mod_eq_of_lt (Nat.lt_of_lt_of_le (Nat.mul_lt_mul'' hg hr) (by decide))

theorem toNat_floorOf (r : GasRatio) (gas : UInt64) :
    (r.floorOf gas).toNat = min (gas.toNat * r.milli.toNat / 1000) (UInt64.size - 1) := by
  rw [floorOf, Word.toNat_cap, BitVec.toNat_udiv, toNat_wide_mul]
  rfl

theorem toNat_ceilOf (r : GasRatio) (gas : UInt64) :
    (r.ceilOf gas).toNat =
      min ((gas.toNat * r.milli.toNat + 999) / 1000) (UInt64.size - 1) := by
  have hlt := (Word.wide gas * r.wide).isLt
  have hdiv : (Word.wide gas * r.wide / 1000).toNat = (Word.wide gas * r.wide).toNat / 1000 := rfl
  have hmod : Word.wide gas * r.wide % 1000 = 0 ↔ (Word.wide gas * r.wide).toNat % 1000 = 0 :=
    BitVec.toNat_inj.symm
  rw [ceilOf, Word.toNat_cap, Word.ceilDiv]
  simp only [hmod]
  split
  · rw [hdiv, toNat_wide_mul] at *
    omega
  · rw [BitVec.toNat_add, hdiv, show (1 : BitVec 128).toNat = 1 from rfl, toNat_wide_mul] at *
    omega

theorem milli_min (r s : GasRatio) : (min r s).milli.toNat = min r.milli.toNat s.milli.toNat := by
  show (if s.milli < r.milli then s else r).milli.toNat = _
  split <;> rename_i h <;> rw [UInt32.lt_iff_toNat_lt] at h <;> omega

example : text ⟨1250⟩ = "1.25" := by decide +kernel
example : text ⟨7⟩ = "0.007" := by decide +kernel
example : text one = "1" := by decide +kernel

end GasRatio

end Countersign
