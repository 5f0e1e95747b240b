import Countersign.Check
import Countersign.Fee.Priority
import Countersign.Proofs.Gas.Unbounded

/-! Gas figures computed with strict operations: a product, a sum or a difference has no result
where it is out of range, and neither has a quotient where the divisor is zero. Amounts that stop at
the largest one and figures that are capped do so on purpose, so these steps are left as they are.
Main statement: `gas_arithmetic_in_range`, by which no strict operation is ever without a result, so
that nothing wraps where gas figures are computed. -/

namespace Countersign

/-! ### Strict operations -/

namespace Word

variable {a b : BitVec 128}

/-- The product of two wide words, if it is below 2^128. -/
def strictMul (a b : BitVec 128) : Option (BitVec 128) :=
  if a.umulOverflow b then none else some (a * b)

/-- The sum of two wide words, if it is below 2^128. -/
def strictAdd (a b : BitVec 128) : Option (BitVec 128) :=
  if a.uaddOverflow b then none else some (a + b)

/-- The quotient of two wide words, unless the divisor is zero. -/
def strictDiv (a b : BitVec 128) : Option (BitVec 128) := if b = 0 then none else some (a / b)

/-- The quotient of two wide words, rounded up. -/
def strictCeilDiv (a b : BitVec 128) : Option (BitVec 128) :=
  (strictDiv a b).bind fun quotient =>
    if a % b = 0 then some quotient else strictAdd quotient 1

theorem toNat_wide_lt (w : UInt64) : (wide w).toNat < 2 ^ 64 := by
  rw [toNat_wide]
  exact w.toNat_lt

/-- Two factors of 64 bits have a product of 128 bits. -/
theorem strictMul_eq (ha : a.toNat < 2 ^ 64) (hb : b.toNat < 2 ^ 64) :
    strictMul a b = some (a * b) := by
  have hproduct : a.toNat * b.toNat < 2 ^ 64 * 2 ^ 64 := Nat.mul_lt_mul'' ha hb
  rw [strictMul, if_neg]
  simpa [BitVec.umulOverflow] using hproduct

theorem strictAdd_eq (h : a.toNat + b.toNat < 2 ^ 128) : strictAdd a b = some (a + b) := by
  rw [strictAdd, if_neg]
  simpa [BitVec.uaddOverflow] using h

theorem strictDiv_eq (h : b ≠ 0) : strictDiv a b = some (a / b) := if_neg h

/-- Rounding up by one does not overflow if the divisor is more than one. -/
theorem strictCeilDiv_eq (h : 1 < b.toNat) : strictCeilDiv a b = some (ceilDiv a b) := by
  have hne : b ≠ 0 := by
    rintro rfl
    exact absurd h (by decide)
  have hhalf : a.toNat / b.toNat ≤ a.toNat / 2 := Nat.div_le_div_left h (by decide)
  have hlt := a.isLt
  have hsum : (a / b).toNat + (1 : BitVec 128).toNat < 2 ^ 128 := by
    rw [BitVec.toNat_udiv, show (1 : BitVec 128).toNat = 1 from rfl]
    omega
  rw [strictCeilDiv, strictDiv_eq hne, Option.bind_some, ceilDiv, strictAdd_eq hsum]
  split <;> rfl

end Word

namespace Wei

variable {a b : Wei}

/-- The sum of two amounts, if it is below 2^256. -/
def strictAdd (a b : Wei) : Option Wei := ofNat? (a.toNat + b.toNat)

/-- The quotient of two amounts, unless the divisor is zero. -/
def strictDiv (a b : Wei) : Option Wei := if b = zero then none else some (a / b)

theorem strictAdd_eq (h : a.toNat + b.toNat < size) : strictAdd a b = some (a.wrappingAdd b) := by
  rw [strictAdd, ofNat?, dif_pos h, Option.some.injEq]
  exact ext (toNat_wrappingAdd h).symm

theorem strictDiv_eq (h : b ≠ zero) : strictDiv a b = some (a / b) := if_neg h

theorem minus?_eq_wrappingSub (h : b ≤ a) : a.minus? b = some (a.wrappingSub b) := by
  rw [minus?_eq_some_iff, toNat_wrappingSub h]
  rw [le_def] at h
  omega

end Wei

/-! ### Figures -/

namespace GasRatio

variable (r : GasRatio) (gas : UInt64)

/-- `gas` times the ratio, rounded down. -/
def strictFloor : Option UInt64 :=
  ((Word.strictMul (Word.wide gas) r.wide).bind fun product => Word.strictDiv product 1000).map
    fun figure => Word.cap figure.toNat

/-- `gas` times the ratio, rounded up. -/
def strictCeil : Option UInt64 :=
  ((Word.strictMul (Word.wide gas) r.wide).bind fun product => Word.strictCeilDiv product 1000).map
    fun figure => Word.cap figure.toNat

theorem strictMul_wide :
    Word.strictMul (Word.wide gas) r.wide = some (Word.wide gas * r.wide) := by
  have hmilli := r.milli.toNat_lt
  have hratio : r.wide.toNat < 2 ^ 64 := by
    rw [toNat_wide]
    omega
  exact Word.strictMul_eq (Word.toNat_wide_lt gas) hratio

theorem strictFloor_eq : r.strictFloor gas = some (r.floorOf gas) := by
  rw [strictFloor, strictMul_wide, Option.bind_some, Word.strictDiv_eq (by decide)]
  rfl

theorem strictCeil_eq : r.strictCeil gas = some (r.ceilOf gas) := by
  rw [strictCeil, strictMul_wide, Option.bind_some, Word.strictCeilDiv_eq (by decide)]
  rfl

end GasRatio

/-- What a figure above the block gas limit is reduced to. -/
def GasPolicy.strictBlockClamp (p : GasPolicy) (blockLimit : UInt64) : Option UInt64 :=
  ((Word.strictMul (Word.wide blockLimit) (Word.wide p.headroomPercent)).bind fun product =>
    Word.strictDiv product 100).map fun figure => Word.cap figure.toNat

theorem GasPolicy.strictBlockClamp_eq (p : GasPolicy) (blockLimit : UInt64) :
    p.strictBlockClamp blockLimit = some (p.blockClamp blockLimit) := by
  rw [strictBlockClamp,
    Word.strictMul_eq (Word.toNat_wide_lt blockLimit) (Word.toNat_wide_lt p.headroomPercent),
    Option.bind_some, Word.strictDiv_eq (by decide)]
  rfl

/-! ### What an account can pay for -/

namespace LimitRequest

variable (r : LimitRequest) (policy : GasPolicy) (available : Wei)

/-- The limit when `available` is left for gas. -/
def strictAffordable : Option (UInt64 × LimitBasis) :=
  let scaled := available * Wei.ofWord 1000
  if r.scaledCost r.ratio ≤ scaled then (r.ratio.strictCeil r.gas).map (·, .full)
  else if scaled < r.scaledCost (r.leastRatio policy) then
    ((r.leastRatio policy).strictFloor r.gas).map (·, .least)
  else (Wei.strictDiv available r.price).map fun gas => (Word.cap gas.toNat, .adapted)

variable {r} in
/-- What costs nothing is covered. -/
theorem scaledCost_of_price_eq_zero (h : r.price = Wei.zero) (ratio : GasRatio) :
    (r.scaledCost ratio).toNat = 0 := by
  rw [toNat_scaledCost, h, Wei.toNat_zero, Nat.zero_mul, Nat.zero_mul, Nat.zero_min]

variable {r} in
theorem price_ne_zero (h : ¬r.scaledCost r.ratio ≤ available * Wei.ofWord 1000) :
    r.price ≠ Wei.zero := by
  -- Nothing is paid for gas without a price, so every balance covers the full figure.
  intro hzero
  apply h
  rw [Wei.le_def, scaledCost_of_price_eq_zero hzero]
  exact Nat.zero_le _

theorem strictAffordable_eq :
    r.strictAffordable policy available = some (r.affordable policy available) := by
  unfold strictAffordable affordable
  dsimp only
  split
  · rw [GasRatio.strictCeil_eq, Option.map_some]
  · next hfull =>
    split
    · rw [GasRatio.strictFloor_eq, Option.map_some]
    · rw [Wei.strictDiv_eq (price_ne_zero available hfull), Option.map_some]

end LimitRequest

/-! ### A limit against its figure -/

namespace CheckRequest

variable (r : CheckRequest) (policy : GasPolicy)

/-- What is found about a gas limit below the recommended figure times its ratio. -/
def strictShortfall : Option (Option CheckCode) :=
  let limit := Word.wide r.gasLimit
  let recommended := Word.wide r.recommendedGas
  if r.gasLimit < GasPolicy.protocolMinimum then some none
  else
    (Word.strictMul recommended r.ratio.wide).bind fun needed =>
    (Word.strictMul limit 1000).map fun given =>
      if needed ≤ given then none
      else if r.ratio ≠ policy.defaultRatio then
        if limit < recommended then some .gasBelowRecommended else none
      else if recommended < limit then some .gasBelowRecommended
      else if limit < recommended then some .gasBelowUse
      else none

theorem strictShortfall_eq : r.strictShortfall policy = some (r.shortfall? policy) := by
  have hlimit : Word.strictMul (Word.wide r.gasLimit) 1000 = some (Word.wide r.gasLimit * 1000) :=
    Word.strictMul_eq (Word.toNat_wide_lt r.gasLimit) (by decide)
  unfold strictShortfall shortfall?
  dsimp only
  split
  · rfl
  · rw [GasRatio.strictMul_wide, Option.bind_some, hlimit, Option.map_some]

end CheckRequest

/-! ### Priority fees -/

namespace FeeLevel

/-- The fee of a level that names none, in a market whose cheapest level is `cheapest`. -/
def strictDerivedPriority (target cheapest : FeeLevel) : Option Wei :=
  (Wei.strictDiv target.price (Wei.ofWord 10)).bind fun tenth =>
  if target.price < cheapest.price || cheapest.kind = target.kind then some tenth
  else
    (target.price.minus? cheapest.price).bind fun gap =>
    (Wei.strictDiv (gap * Wei.ofWord 8) (Wei.ofWord 10)).bind fun share =>
    Wei.strictAdd share tenth

def strictPriorityFee (levels : List FeeLevel) (target : FeeLevel) (chain : UInt64)
    (paysFull : Bool) : Option Wei :=
  if chain ≠ mainnet || paysFull then some target.price
  else match target.priority.filter (· ≠ Wei.zero) with
    | some fee => some fee
    | none =>
      match cheapest? levels with
      | none => some target.price
      | some cheapest => strictDerivedPriority target cheapest

/-- Four fifths of a difference and a tenth of what it is taken from make an amount. -/
theorem share_add_tenth_lt {gap price : Wei} (h : gap ≤ price) :
    (gap * Wei.ofWord 8 / Wei.ofWord 10).toNat + (price / Wei.ofWord 10).toNat < Wei.size := by
  have hten : (Wei.ofWord 10).toNat = 10 := rfl
  have height : (Wei.ofWord 8).toNat = 8 := rfl
  have hprice := price.lt
  rw [Wei.le_def] at h
  rw [Wei.toNat_div, Wei.toNat_div, Wei.toNat_mul, hten, height]
  omega

theorem strictDerivedPriority_eq (target cheapest : FeeLevel) :
    strictDerivedPriority target cheapest = some (derivedPriority target cheapest) := by
  have hten : Wei.ofWord 10 ≠ Wei.zero := by decide
  unfold strictDerivedPriority derivedPriority
  dsimp only
  rw [Wei.strictDiv_eq hten, Option.bind_some]
  by_cases htenth : (target.price < cheapest.price || cheapest.kind = target.kind) = true
  · rw [if_pos htenth, if_pos htenth]
  · have hle : cheapest.price ≤ target.price := by
      rw [Wei.le_def]
      simp only [Bool.or_eq_true, decide_eq_true_eq, not_or, Wei.lt_def] at htenth
      omega
    -- What is left after the subtraction is within the price, and so is the fee made of it.
    have hgap : target.price.wrappingSub cheapest.price ≤ target.price := by
      rw [Wei.le_def, Wei.toNat_wrappingSub hle]
      exact Nat.sub_le _ _
    rw [if_neg htenth, if_neg htenth, Wei.minus?_eq_wrappingSub hle, Option.bind_some,
      Wei.strictDiv_eq hten, Option.bind_some, Wei.strictAdd_eq (share_add_tenth_lt hgap)]

theorem strictPriorityFee_eq (levels : List FeeLevel) (target : FeeLevel) (chain : UInt64)
    (paysFull : Bool) : strictPriorityFee levels target chain paysFull =
      some (priorityFee levels target chain paysFull) := by
  unfold strictPriorityFee priorityFee
  split
  · rfl
  · cases target.priority.filter (· ≠ Wei.zero) with
    | some fee => rfl
    | none =>
      cases cheapest? levels with
      | none => rfl
      | some cheapest => exact strictDerivedPriority_eq target cheapest

end FeeLevel

/-- Strict operations always have a result where gas figures are scaled, reduced to fit a block,
compared with a limit, bought with a balance, and where priority fees are derived, and the result is
the one that the other operations have. So a scaled figure is the exact one, rounded down or up,
unless that is above the largest word. -/
theorem gas_arithmetic_in_range :
    (∀ (r : GasRatio) (gas : UInt64),
      r.strictFloor gas = some (r.floorOf gas) ∧
      r.strictCeil gas = some (r.ceilOf gas) ∧
      (r.floorOf gas).toNat =
        min ⌊(gas.toNat * r.milli.toNat : ℚ) / 1000⌋₊ (2 ^ 64 - 1) ∧
      (r.ceilOf gas).toNat =
        min ⌈(gas.toNat * r.milli.toNat : ℚ) / 1000⌉₊ (2 ^ 64 - 1)) ∧
    (∀ (policy : GasPolicy) (blockLimit : UInt64),
      policy.strictBlockClamp blockLimit = some (policy.blockClamp blockLimit)) ∧
    (∀ (r : CheckRequest) (policy : GasPolicy),
      r.strictShortfall policy = some (r.shortfall? policy)) ∧
    (∀ (r : LimitRequest) (policy : GasPolicy) (available : Wei),
      r.strictAffordable policy available = some (r.affordable policy available)) ∧
    ∀ (levels : List FeeLevel) (target : FeeLevel) (chain : UInt64) (paysFull : Bool),
      FeeLevel.strictPriorityFee levels target chain paysFull =
        some (FeeLevel.priorityFee levels target chain paysFull) := by
  refine ⟨fun r gas => ⟨r.strictFloor_eq gas, r.strictCeil_eq gas, ?_, ?_⟩,
    GasPolicy.strictBlockClamp_eq, CheckRequest.strictShortfall_eq,
    LimitRequest.strictAffordable_eq, FeeLevel.strictPriorityFee_eq⟩
  · rw [GasRatio.floorOf_eq, Word.toNat_cap, GasRatio.value, mul_div_assoc]
    rfl
  · rw [GasRatio.ceilOf_eq, Word.toNat_cap, GasRatio.value, mul_div_assoc]
    rfl

end Countersign
