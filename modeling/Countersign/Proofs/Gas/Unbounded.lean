import Countersign.Gas.Limit
import Mathlib.Algebra.Order.Floor.Semifield
import Mathlib.Data.Rat.Floor
import Mathlib.Tactic.Positivity

/-! Gas limits computed with numbers that have no bounds: integers for amounts and rational numbers
for ratios. Amounts stop at 2^256 and gas figures at 2^64, and a ratio is a whole number of
thousandths that products are taken with before anything is compared or divided. Main statement:
`solve_eq_unbounded`, by which none of this is seen in a gas limit, except that a figure stops at
the largest word and that a balance whose thousandfold stops is taken to cover the figure in
full. -/

namespace Countersign

/-! ### Ratios as numbers -/

namespace GasRatio

/-- The ratio as a number. -/
def value (r : GasRatio) : ℚ := r.milli.toNat / 1000

theorem value_nonneg (r : GasRatio) : 0 ≤ r.value := by
  unfold value
  positivity

theorem value_min (r s : GasRatio) : (min r s).value = min r.value s.value := by
  rw [value, milli_min, Nat.cast_min, value, value, min_div_div_right (by norm_num)]

theorem value_le_iff (r s : GasRatio) : r.value ≤ s.value ↔ r.milli ≤ s.milli := by
  rw [value, value, div_le_div_iff_of_pos_right (by norm_num), Nat.cast_le, UInt32.le_iff_toNat_le]

theorem mul_value_eq (r : GasRatio) (n : ℕ) :
    n * r.value = ((n * r.milli.toNat : ℕ) : ℚ) / 1000 := by
  rw [value, Nat.cast_mul, mul_div_assoc]

/-- Comparing with a multiple of a ratio is comparing thousandths. -/
theorem mul_value_le_iff (r : GasRatio) (n m : ℕ) :
    n * r.value ≤ m ↔ n * r.milli.toNat ≤ m * 1000 := by
  rw [mul_value_eq, div_le_iff₀ (by norm_num)]
  exact_mod_cast Iff.rfl

theorem floorOf_eq (r : GasRatio) (gas : UInt64) :
    r.floorOf gas = Word.cap ⌊gas.toNat * r.value⌋₊ := by
  apply UInt64.toNat_inj.mp
  rw [toNat_floorOf, Word.toNat_cap, mul_value_eq]
  congr 1
  exact_mod_cast (Nat.floor_div_eq_div (K := ℚ) _ 1000).symm

theorem ceilOf_eq (r : GasRatio) (gas : UInt64) :
    r.ceilOf gas = Word.cap ⌈gas.toNat * r.value⌉₊ := by
  apply UInt64.toNat_inj.mp
  rw [toNat_ceilOf, Word.toNat_cap, mul_value_eq]
  congr 1
  refine eq_of_forall_ge_iff fun k => ?_
  rw [Nat.ceil_le, div_le_iff₀ (by norm_num)]
  have hcast : ((gas.toNat * r.milli.toNat : ℕ) : ℚ) ≤ k * 1000 ↔
      gas.toNat * r.milli.toNat ≤ k * 1000 := by
    exact_mod_cast Iff.rfl
  rw [hcast]
  omega

end GasRatio

/-! ### What is left of the balance -/

namespace PendingCost

/-- The total without a bound. -/
def unbounded (c : PendingCost) : ℕ := c.value.toNat + c.gas.toNat * c.price.toNat

theorem toNat_total (c : PendingCost) : c.total.toNat = min c.unbounded (Wei.size - 1) := by
  rw [total, Wei.toNat_add, Wei.toNat_mul, Wei.toNat_ofWord, unbounded]
  omega

end PendingCost

theorem toNat_foldl_total (pending : List PendingCost) (sum : Wei) :
    (pending.foldl (fun sum c => sum + c.total) sum).toNat =
      min (sum.toNat + (pending.map (·.unbounded)).sum) (Wei.size - 1) := by
  induction pending generalizing sum with
  | nil =>
    have := sum.lt
    simp only [List.foldl_nil, List.map_nil, List.sum_nil]
    omega
  | cons c pending ih =>
    rw [List.foldl_cons, ih, Wei.toNat_add, c.toNat_total, List.map_cons, List.sum_cons]
    omega

namespace LimitRequest

/-- What the transactions ahead of the draft cost together, without a bound. -/
def ahead (r : LimitRequest) : ℕ :=
  ((r.pending.filter fun c => c.nonce < r.nonce).map (·.unbounded)).sum

/-- What the value and the transactions ahead leave of the balance. It may be negative. -/
def left (r : LimitRequest) : ℤ := r.balance.toNat - r.sendValue.toNat - r.ahead

theorem toNat_pendingCost (r : LimitRequest) :
    (pendingCost r.pending r.nonce).toNat = min r.ahead (Wei.size - 1) := by
  rw [pendingCost, toNat_foldl_total, Wei.toNat_zero, Nat.zero_add]
  rfl

theorem toNat_reserved (r : LimitRequest) :
    (r.sendValue + pendingCost r.pending r.nonce).toNat =
      min (r.sendValue.toNat + r.ahead) (Wei.size - 1) := by
  rw [Wei.toNat_add, toNat_pendingCost]
  omega

variable {r : LimitRequest} {available : Wei}

theorem available?_eq_some_iff :
    r.available? = some available ↔ 0 < r.left ∧ r.left = available.toNat := by
  have hbalance := r.balance.lt
  have hreserved := r.toNat_reserved
  rw [available?, Option.filter_eq_some_iff, Wei.minus?_eq_some_iff, hreserved, decide_eq_true_eq,
    ne_eq, Wei.ext_iff, Wei.toNat_zero, left]
  omega

theorem available?_eq_none_iff : r.available? = none ↔ r.left ≤ 0 := by
  rw [← not_iff_not, ← ne_eq, Option.ne_none_iff_exists']
  constructor
  · rintro ⟨available, h⟩
    exact not_le.2 (available?_eq_some_iff.1 h).1
  · intro h
    have hbalance := r.balance.lt
    have hleft : r.left.toNat < Wei.size := by
      rw [left]
      omega
    exact ⟨⟨r.left.toNat, hleft⟩, available?_eq_some_iff.2 ⟨not_le.1 h, by
      rw [Int.toNat_of_nonneg (not_le.1 h).le]⟩⟩

/-! ### The figure -/

/-- The ratio that the least figure is scaled by, as a number. -/
def leastValue (r : LimitRequest) (policy : GasPolicy) : ℚ :=
  min r.ratio.value policy.lowBalanceCap.value

/-- What the estimated figure times a ratio costs, neither bounded nor rounded. -/
def cost (r : LimitRequest) (ratio : ℚ) : ℚ := r.price.toNat * (r.gas.toNat * ratio)

/-- The balance is taken to cover the figure in full: it does, or its thousandfold is out of
range. -/
def CoversFull (r : LimitRequest) : Prop :=
  r.cost r.ratio.value ≤ r.left ∨ Wei.size ≤ r.left * 1000

instance (r : LimitRequest) : Decidable r.CoversFull := inferInstanceAs (Decidable (_ ∨ _))

/-- The figure before it is reduced to fit a block, and how it is arrived at. -/
def unbounded (r : LimitRequest) (policy : GasPolicy) : ℕ × LimitBasis :=
  if r.left ≤ 0 then (⌊r.gas.toNat * r.leastValue policy⌋₊, .noBalance)
  else if r.CoversFull then (⌈r.gas.toNat * r.ratio.value⌉₊, .full)
  else if r.left < r.cost (r.leastValue policy) then
    (⌊r.gas.toNat * r.leastValue policy⌋₊, .least)
  else (⌊(r.left / r.price.toNat : ℚ)⌋₊, .adapted)

/-- A price of zero is always covered. -/
theorem price_pos (h : 0 < r.left) (hfull : ¬r.CoversFull) : (0 : ℚ) < r.price.toNat := by
  rw [Nat.cast_pos, Nat.pos_iff_ne_zero]
  intro hzero
  apply hfull
  left
  rw [cost, hzero, Nat.cast_zero, zero_mul]
  exact_mod_cast h.le

variable {policy : GasPolicy}

theorem unbounded_noBalance (h : r.left ≤ 0) :
    r.unbounded policy = (⌊r.gas.toNat * r.leastValue policy⌋₊, .noBalance) := by
  rw [unbounded, if_pos h]

theorem unbounded_full (h : 0 < r.left) (hfull : r.CoversFull) :
    r.unbounded policy = (⌈r.gas.toNat * r.ratio.value⌉₊, .full) := by
  rw [unbounded, if_neg (not_le.2 h), if_pos hfull]

theorem unbounded_least (h : 0 < r.left) (hfull : ¬r.CoversFull)
    (hleast : r.left < r.cost (r.leastValue policy)) :
    r.unbounded policy = (⌊r.gas.toNat * r.leastValue policy⌋₊, .least) := by
  rw [unbounded, if_neg (not_le.2 h), if_neg hfull, if_pos hleast]

theorem unbounded_adapted (h : 0 < r.left) (hfull : ¬r.CoversFull)
    (hleast : ¬r.left < r.cost (r.leastValue policy)) :
    r.unbounded policy = (⌊(r.left / r.price.toNat : ℚ)⌋₊, .adapted) := by
  rw [unbounded, if_neg (not_le.2 h), if_neg hfull, if_neg hleast]

theorem basis_eq_full_iff : (r.unbounded policy).2 = .full ↔ 0 < r.left ∧ r.CoversFull := by
  unfold unbounded
  split_ifs with hneg hfull hleast
  · simp [not_lt.2 hneg]
  · simp [not_le.1 hneg, hfull]
  · simp [hfull]
  · simp [hfull]

theorem basis_eq_adapted_iff : (r.unbounded policy).2 = .adapted ↔
    0 < r.left ∧ ¬r.CoversFull ∧ r.cost (r.leastValue policy) ≤ r.left := by
  unfold unbounded
  split_ifs with hneg hfull hleast
  · simp [not_lt.2 hneg]
  · simp [hfull]
  · simp [not_le.2 hleast]
  · simp [not_le.1 hneg, hfull, not_lt.1 hleast]

theorem value_leastRatio (r : LimitRequest) (policy : GasPolicy) :
    (r.leastRatio policy).value = r.leastValue policy := GasRatio.value_min _ _

theorem cost_le_iff (ratio : GasRatio) (n : ℕ) :
    r.cost ratio.value ≤ n ↔ r.price.toNat * r.gas.toNat * ratio.milli.toNat ≤ n * 1000 := by
  rw [← ratio.mul_value_le_iff, cost, Nat.cast_mul, mul_assoc]

theorem toNat_scaledCost (ratio : GasRatio) :
    (r.scaledCost ratio).toNat =
      min (r.price.toNat * r.gas.toNat * ratio.milli.toNat) (Wei.size - 1) := by
  rw [scaledCost, Wei.toNat_mul_mul, Wei.toNat_ofWord, Wei.toNat_ofWord, UInt32.toNat_toUInt64]

/-- Stopping both sides is seen only where the right one stops. -/
theorem scaledCost_le_iff (ratio : GasRatio) (available : Wei) :
    r.scaledCost ratio ≤ available * Wei.ofWord 1000 ↔
      r.cost ratio.value ≤ available.toNat ∨ Wei.size ≤ available.toNat * 1000 := by
  -- The largest amount is odd, so a thousandfold that is in range is below it.
  have heven : Wei.size % 2 = 0 := by decide
  have hpos : 0 < Wei.size := by decide
  have hthousand : (Wei.ofWord 1000).toNat = 1000 := rfl
  rw [Wei.le_def, toNat_scaledCost, Wei.toNat_mul, hthousand, cost_le_iff]
  omega

theorem scaledCost_ratio_le_iff (hleft : r.left = available.toNat) :
    r.scaledCost r.ratio ≤ available * Wei.ofWord 1000 ↔ r.CoversFull := by
  rw [scaledCost_le_iff, CoversFull, hleft, Int.cast_natCast]
  apply or_congr_right
  exact_mod_cast Iff.rfl

theorem lt_scaledCost_leastRatio_iff (hleft : r.left = available.toNat) (hfull : ¬r.CoversFull) :
    available * Wei.ofWord 1000 < r.scaledCost (r.leastRatio policy) ↔
      r.left < r.cost (r.leastValue policy) := by
  -- Where the full figure is not covered, no thousandfold is out of range.
  have hrange : ¬Wei.size ≤ available.toNat * 1000 := by
    intro h
    apply hfull
    right
    rw [hleft]
    exact_mod_cast h
  rw [Wei.lt_def, ← not_le, ← Wei.le_def, scaledCost_le_iff, or_iff_left hrange, value_leastRatio,
    hleft, Int.cast_natCast, not_le]

theorem affordable_eq (policy : GasPolicy) (hpos : 0 < r.left) (hleft : r.left = available.toNat) :
    r.affordable policy available =
      (Word.cap (r.unbounded policy).1, (r.unbounded policy).2) := by
  rw [affordable]
  by_cases hfull : r.CoversFull
  · rw [if_pos ((scaledCost_ratio_le_iff hleft).2 hfull), unbounded_full hpos hfull,
      GasRatio.ceilOf_eq]
  · rw [if_neg (mt (scaledCost_ratio_le_iff hleft).1 hfull)]
    by_cases hleast : r.left < r.cost (r.leastValue policy)
    · rw [if_pos ((lt_scaledCost_leastRatio_iff hleft hfull).2 hleast),
        unbounded_least hpos hfull hleast, GasRatio.floorOf_eq, value_leastRatio]
    · rw [if_neg (mt (lt_scaledCost_leastRatio_iff hleft hfull).1 hleast),
        unbounded_adapted hpos hfull hleast, Wei.toNat_div, hleft, Int.cast_natCast,
        Nat.floor_div_eq_div]

theorem unclamped_eq (r : LimitRequest) (policy : GasPolicy) :
    r.unclamped policy = (Word.cap (r.unbounded policy).1, (r.unbounded policy).2) := by
  rw [unclamped]
  cases h : r.available? with
  | none =>
    rw [unbounded_noBalance (available?_eq_none_iff.1 h), GasRatio.floorOf_eq, value_leastRatio]
  | some available =>
    obtain ⟨hpos, hleft⟩ := available?_eq_some_iff.1 h
    exact affordable_eq policy hpos hleft

/-- A gas limit is the unbounded figure up to the largest word, or, where that is above the block
gas limit, the policy's share of the latter. -/
theorem solve_eq_unbounded (r : LimitRequest) (policy : GasPolicy) :
    let basis := (r.unbounded policy).2
    let figure := Word.cap (r.unbounded policy).1
    r.solve policy = match r.blockLimit with
      | none => ⟨figure, basis, false⟩
      | some block =>
        if block < figure then
          ⟨Word.cap (block.toNat * policy.headroomPercent.toNat / 100), basis, true⟩
        else ⟨figure, basis, false⟩ := by
  intro basis figure
  have hclamp : ∀ block, policy.blockClamp block =
      Word.cap (block.toNat * policy.headroomPercent.toNat / 100) := by
    intro block
    apply UInt64.toNat_inj.mp
    rw [policy.toNat_blockClamp, Word.toNat_cap]
  rw [solve, unclamped_eq]
  simp only [GasLimit.within, hclamp]
  rfl

end LimitRequest

end Countersign
