import Countersign.Wei

/-! What a draft's gas costs. -/

namespace Countersign

structure FeeCost where
  expected : Wei
  /-- The cost of all gas that may be used. -/
  most : Wei
deriving DecidableEq

namespace FeeCost

/-- `gas` at `price`, with the fee that a rollup charges for its base chain. -/
def of (gas : UInt64) (price : Wei) (baseFee : Option Wei) : Wei :=
  Wei.ofWord gas * price + baseFee.getD Wei.zero

def explain (gasUsed gasLimit : UInt64) (price : Wei) (baseFee : Option Wei) : FeeCost :=
  ⟨of gasUsed price baseFee, of gasLimit price baseFee⟩

/-- With a value on top, a cost is the exact sum unless that is out of range. -/
theorem toNat_of_add (gas : UInt64) (price : Wei) (baseFee : Option Wei) (value : Wei) :
    (of gas price baseFee + value).toNat =
      min (gas.toNat * price.toNat + (baseFee.getD Wei.zero).toNat + value.toNat)
        (Wei.size - 1) := by
  simp only [of, Wei.toNat_add, Wei.toNat_mul, Wei.toNat_ofWord]
  generalize gas.toNat * price.toNat = product
  omega

end FeeCost

end Countersign
