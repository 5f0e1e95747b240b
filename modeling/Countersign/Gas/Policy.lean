import Countersign.Gas.Ratio
import Countersign.Table

/-! The figures that a wallet's gas decisions go by. -/

namespace Countersign

structure GasPolicy where
  /-- The ratio on chains without one of their own. -/
  defaultRatio : GasRatio
  chainRatios : Table UInt64 GasRatio
  /-- The least gas limit that may be signed. -/
  minimumGasLimit : UInt64
  /-- The gas figure when nothing better is known. -/
  fallbackGasLimit : UInt64
  /-- The most a figure is scaled by when the balance does not cover the full ratio. -/
  lowBalanceCap : GasRatio
  /-- How much of the block gas limit a figure above it is reduced to, in percent. -/
  headroomPercent : UInt64
deriving DecidableEq

namespace GasPolicy

/-- The gas that every transaction uses at least. -/
def protocolMinimum : UInt64 := 21000

/-- Chains whose gas estimates are known to be too low, where a figure is doubled. -/
def carefulChains : List UInt64 := [1284, 1285, 1287]

def standard : GasPolicy where
  defaultRatio := .standard
  chainRatios := Table.ofList (carefulChains.map fun chain => (chain, ⟨2000⟩))
  minimumGasLimit := protocolMinimum
  fallbackGasLimit := 1000000
  lowBalanceCap := .standard
  headroomPercent := 95

def ratioFor (p : GasPolicy) (chain : UInt64) : GasRatio :=
  (p.chainRatios.get? chain).getD p.defaultRatio

/-- What a figure above the block gas limit is reduced to, rounded down. -/
def blockClamp (p : GasPolicy) (blockLimit : UInt64) : UInt64 :=
  Word.cap (Word.wide blockLimit * Word.wide p.headroomPercent / 100).toNat

theorem toNat_blockClamp (p : GasPolicy) (blockLimit : UInt64) :
    (p.blockClamp blockLimit).toNat =
      min (blockLimit.toNat * p.headroomPercent.toNat / 100) (UInt64.size - 1) := by
  have hb := blockLimit.toNat_lt
  have hp := p.headroomPercent.toNat_lt
  rw [blockClamp, Word.toNat_cap, BitVec.toNat_udiv, BitVec.toNat_mul, Word.toNat_wide,
    Word.toNat_wide, Nat.mod_eq_of_lt (Nat.mul_lt_mul'' hb hp)]
  rfl

theorem blockClamp_le {p : GasPolicy} (h : p.headroomPercent ≤ 100) (blockLimit : UInt64) :
    p.blockClamp blockLimit ≤ blockLimit := by
  have hpercent : p.headroomPercent.toNat ≤ 100 := UInt64.le_iff_toNat_le.1 h
  have hmul := Nat.mul_le_mul_left blockLimit.toNat hpercent
  rw [UInt64.le_iff_toNat_le, toNat_blockClamp]
  omega

end GasPolicy

end Countersign
