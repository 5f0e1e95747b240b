import Countersign.Gas.Plan
import Countersign.Proofs.Check.Findings

/-! Gas plans against the checks. A plan rounds the estimated figure times its ratio up, and the
checks compare a gas limit with the product before it is rounded. So the limit of a figure that is
planned in full is not found to be too low, whatever its remainder and its ratio. -/

namespace Countersign

namespace LimitRequest

variable {r : LimitRequest} {policy : GasPolicy}

/-- A full limit that no block cuts is the product rounded up, if that is in range. -/
theorem toNat_limit_of_full (hbasis : (r.solve policy).basis = .full)
    (hclamped : (r.solve policy).clamped = false)
    (hrange : r.gas.toNat * r.ratio.value ≤ (2 ^ 64 - 1 : ℕ)) :
    (r.solve policy).limit.toNat = ⌈r.gas.toNat * r.ratio.value⌉₊ := by
  -- The range is that of the product, and rounding up does not leave it, as its end is an integer.
  have hceil : ⌈r.gas.toNat * r.ratio.value⌉₊ ≤ 2 ^ 64 - 1 := Nat.ceil_le.2 hrange
  rw [basis_solve, unclamped_eq] at hbasis
  obtain ⟨hpos, hfull⟩ := basis_eq_full_iff.1 hbasis
  rw [solve_of_not_clamped hclamped, unclamped_eq, unbounded_full hpos hfull]
  show (Word.cap _).toNat = _
  rw [Word.toNat_cap]
  exact Nat.min_eq_left hceil

end LimitRequest

/-- The checks of a draft that is signed with the gas limit of a plan. -/
def CheckRequest.withPlan (c : CheckRequest) (plan : GasPlan) : CheckRequest :=
  { c with recommendedGas := plan.gas, ratio := plan.ratio, gasLimit := plan.limit }

namespace PlanRequest

variable {r : PlanRequest} {policy : GasPolicy}

theorem not_fallsShort_withPlan (c : CheckRequest) {plan : GasPlan}
    (hlimit : plan.limit.toNat = ⌈plan.gas.toNat * plan.ratio.value⌉₊) :
    ¬(c.withPlan plan).FallsShort := by
  rintro ⟨-, hshort⟩
  apply not_le.2 hshort
  show plan.gas.toNat * plan.ratio.value ≤ (plan.limit.toNat : ℚ)
  rw [hlimit]
  exact Nat.le_ceil _

/-- The checks do not find a limit too low that a plan has in full, without a cut to the block: they
report neither shortfall, and the limit is below the minimum exactly if the figure rounded up is. -/
theorem plan_not_fallsShort (r : PlanRequest) (policy : GasPolicy) (c : CheckRequest)
    (hbasis : (r.plan policy).solution.basis = .full)
    (hclamped : (r.plan policy).solution.clamped = false)
    (hrange : (r.plan policy).gas.toNat * (r.plan policy).ratio.value ≤ (2 ^ 64 - 1 : ℕ)) :
    let plan := r.plan policy
    let found := ((c.withPlan plan).run policy).map (·.code)
    .gasBelowRecommended ∉ found ∧ .gasBelowUse ∉ found ∧
      (c.isMultisig = false → (.gasBelowMinimum ∈ found ↔
        ⌈plan.gas.toNat * plan.ratio.value⌉₊ < policy.minimumGasLimit.toNat)) := by
  intro plan found
  have hlimit : plan.limit.toNat = ⌈plan.gas.toNat * plan.ratio.value⌉₊ :=
    LimitRequest.toNat_limit_of_full hbasis hclamped hrange
  have hshort := not_fallsShort_withPlan c hlimit
  refine ⟨?_, ?_, ?_⟩
  · rw [CheckRequest.mem_codes_run]
    exact fun h => hshort h.2.1
  · rw [CheckRequest.mem_codes_run]
    exact fun h => hshort h.2.1
  · intro hm
    rw [CheckRequest.mem_codes_run, ← hlimit]
    exact and_iff_right hm

/-- One and a half times the figure is 31501.5. -/
def sampleHalf : PlanRequest where
  chainId := 1
  estimate := ⟨21001, 21001, true, .declared⟩
  recommendedNonce := 0
  nonce := 0
  price := .cap 2
  pending := []
  balance := .cap 63003
  sendValue := .zero
  blockLimit := some 30000000

/-- The checks of an account that pays for its gas. -/
def sampleCheck : CheckRequest where
  recommendedGas := 0
  ratio := .one
  recommendedNonce := 0
  gasLimit := 0
  nonce := 0
  maxGasCost := .cap 63004
  sendValue := .zero
  balance := .cap 63003
  replaces := false
  isMultisig := false

/-- A figure that is planned in full and below a raised minimum is only found to be below that. -/
theorem plan_not_fallsShort_half :
    let policy := { GasPolicy.standard with minimumGasLimit := 32000 }
    let plan := sampleHalf.plan policy
    let found := ((sampleCheck.withPlan plan).run policy).map (·.code)
    plan.solution.basis = .full ∧ plan.solution.clamped = false ∧ plan.limit = 31502 ∧
      .gasBelowRecommended ∉ found ∧ .gasBelowUse ∉ found ∧ .gasBelowMinimum ∈ found := by
  intro policy plan found
  have hbasis : plan.solution.basis = .full := by decide +kernel
  have hclamped : plan.solution.clamped = false := by decide +kernel
  have hrange : plan.gas.toNat * plan.ratio.value ≤ (2 ^ 64 - 1 : ℕ) := by decide +kernel
  obtain ⟨hrecommended, huse, hminimum⟩ :=
    plan_not_fallsShort sampleHalf policy sampleCheck hbasis hclamped hrange
  have hfound := (hminimum rfl).2 (by decide +kernel)
  exact ⟨hbasis, hclamped, by decide +kernel, hrecommended, huse, hfound⟩

end PlanRequest

end Countersign
