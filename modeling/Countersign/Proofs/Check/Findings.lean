import Countersign.Check
import Countersign.Proofs.Gas.Unbounded

/-! What the checks find, said with numbers that have no bounds: rational numbers for a figure times
its ratio and natural numbers for amounts. `Warrants` gives the condition of each code by itself.
Main statement: `run_eq_filter_reports`, by which a draft is reported what its figures warrant, each
code at most once, in one fixed order and with one fixed level. -/

namespace Countersign

/-- The findings that there can be, in the order in which they are reported. -/
def Check.reports : List Check :=
  [⟨.gasBelowMinimum, some .forbidden⟩, ⟨.gasBelowRecommended, some .warn⟩,
    ⟨.gasBelowUse, some .danger⟩, ⟨.balanceShort, some .forbidden⟩, ⟨.nonceLow, none⟩]

example : Check.reports.map (·.code.number) = [3006, 3004, 3005, 3001, 3003] := rfl

namespace CheckRequest

/-- The protocol allows the gas limit, but it is below the estimated figure times its ratio. -/
def FallsShort (r : CheckRequest) : Prop :=
  21000 ≤ r.gasLimit.toNat ∧ (r.gasLimit.toNat : ℚ) < r.recommendedGas.toNat * r.ratio.value

/-- The condition of each code. Those about the gas and the balance do not apply to a multisig, and
the one about the nonce does not apply to a draft that replaces a transaction. -/
def Warrants (r : CheckRequest) (policy : GasPolicy) : CheckCode → Prop
  | .gasBelowMinimum => r.isMultisig = false ∧ r.gasLimit.toNat < policy.minimumGasLimit.toNat
  | .gasBelowRecommended => r.isMultisig = false ∧ r.FallsShort ∧
      if r.ratio = policy.defaultRatio then r.recommendedGas.toNat < r.gasLimit.toNat
      else r.gasLimit.toNat < r.recommendedGas.toNat
  | .gasBelowUse => r.isMultisig = false ∧ r.FallsShort ∧ r.ratio = policy.defaultRatio ∧
      r.gasLimit.toNat < r.recommendedGas.toNat
  | .balanceShort => r.isMultisig = false ∧
      r.balance.toNat < r.maxGasCost.toNat + r.sendValue.toNat ∧ r.balance.toNat ≠ Wei.size - 1
  | .nonceLow => r.replaces = false ∧ r.nonce.toNat < r.recommendedNonce.toNat

instance (r : CheckRequest) : Decidable r.FallsShort := inferInstanceAs (Decidable (_ ∧ _))

instance (r : CheckRequest) (policy : GasPolicy) : DecidablePred (r.Warrants policy)
  | .gasBelowMinimum => inferInstanceAs (Decidable (_ ∧ _))
  | .gasBelowRecommended => inferInstanceAs (Decidable (_ ∧ _ ∧ ite _ _ _))
  | .gasBelowUse => inferInstanceAs (Decidable (_ ∧ _))
  | .balanceShort => inferInstanceAs (Decidable (_ ∧ _))
  | .nonceLow => inferInstanceAs (Decidable (_ ∧ _))

variable {r : CheckRequest} {policy : GasPolicy}

/-! ### The gas limit against the figure -/

theorem protocolMinimum_le_iff :
    ¬r.gasLimit < GasPolicy.protocolMinimum ↔ 21000 ≤ r.gasLimit.toNat := by
  rw [UInt64.not_lt, UInt64.le_iff_toNat_le]
  rfl

/-- Neither product overflows a wide word, so comparing them compares the exact numbers. -/
theorem wide_mul_le_iff : Word.wide r.recommendedGas * r.ratio.wide ≤ Word.wide r.gasLimit * 1000 ↔
    ¬(r.gasLimit.toNat : ℚ) < r.recommendedGas.toNat * r.ratio.value := by
  have hlimit := r.gasLimit.toNat_lt
  have hthousand : (Word.wide r.gasLimit * 1000).toNat = r.gasLimit.toNat * 1000 := by
    rw [BitVec.toNat_mul, Word.toNat_wide]
    exact Nat.mod_eq_of_lt (by show r.gasLimit.toNat * 1000 < _; omega)
  rw [BitVec.le_def, GasRatio.toNat_wide_mul, hthousand, not_lt, GasRatio.mul_value_le_iff]

theorem shortfall?_of_not_fallsShort (h : ¬r.FallsShort) : r.shortfall? policy = none := by
  unfold shortfall?
  dsimp only
  rw [FallsShort, ← protocolMinimum_le_iff, not_and] at h
  split
  · rfl
  · next hmin => rw [if_pos (wide_mul_le_iff.2 (h hmin))]

theorem shortfall?_of_fallsShort (h : r.FallsShort) : r.shortfall? policy =
    if r.ratio = policy.defaultRatio then
      if r.recommendedGas.toNat < r.gasLimit.toNat then some .gasBelowRecommended
      else if r.gasLimit.toNat < r.recommendedGas.toNat then some .gasBelowUse
      else none
    else if r.gasLimit.toNat < r.recommendedGas.toNat then some .gasBelowRecommended
    else none := by
  obtain ⟨hmin, hshort⟩ := h
  unfold shortfall?
  dsimp only
  rw [if_neg (protocolMinimum_le_iff.2 hmin), if_neg (fun hle => wide_mul_le_iff.1 hle hshort)]
  simp only [BitVec.lt_def, Word.toNat_wide, ne_eq, ite_not]

/-- At most one of the two codes about the figure is found. -/
theorem toList_shortfall? (hm : r.isMultisig = false) : (r.shortfall? policy).toList =
    [.gasBelowRecommended, .gasBelowUse].filter fun code => r.Warrants policy code := by
  by_cases h : r.FallsShort
  · rw [shortfall?_of_fallsShort h]
    by_cases hratio : r.ratio = policy.defaultRatio
    · rcases Nat.lt_trichotomy r.gasLimit.toNat r.recommendedGas.toNat with hlt | heq | hgt
      · simp [Warrants, hm, h, hratio, hlt, Nat.lt_asymm hlt]
      · simp [Warrants, hm, h, hratio, heq]
      · simp [Warrants, hm, h, hratio, hgt, Nat.lt_asymm hgt]
    · by_cases hlt : r.gasLimit.toNat < r.recommendedGas.toNat
      · simp [Warrants, hm, h, hratio, hlt]
      · simp [Warrants, hm, h, hratio, hlt]
  · rw [shortfall?_of_not_fallsShort h]
    simp [Warrants, h]

/-! ### All findings -/

theorem warrants_gasBelowMinimum : r.Warrants policy .gasBelowMinimum ↔
    r.isMultisig = false ∧ r.gasLimit < policy.minimumGasLimit := by
  rw [Warrants, UInt64.lt_iff_toNat_lt]

theorem warrants_balanceShort : r.Warrants policy .balanceShort ↔
    r.isMultisig = false ∧ r.balance < r.maxGasCost + r.sendValue := by
  rw [Warrants, Wei.lt_add_iff]

theorem ite_singleton_eq_filter {p : Prop} [Decidable p] {code : CheckCode}
    (h : p ↔ r.Warrants policy code) :
    (if p then [code] else []) = [code].filter fun code => r.Warrants policy code := by
  by_cases hp : p
  · simp [hp, h.1 hp]
  · simp [hp, mt h.2 hp]

theorem gasCodes_eq : r.gasCodes policy =
    [.gasBelowMinimum, .gasBelowRecommended, .gasBelowUse, .balanceShort].filter
      fun code => r.Warrants policy code := by
  cases hm : r.isMultisig with
  | true => simp [gasCodes, Warrants, hm]
  | false =>
    have hminimum : r.gasLimit < policy.minimumGasLimit ↔ r.Warrants policy .gasBelowMinimum := by
      rw [warrants_gasBelowMinimum, and_iff_right hm]
    have hbalance : r.balance < r.maxGasCost + r.sendValue ↔ r.Warrants policy .balanceShort := by
      rw [warrants_balanceShort, and_iff_right hm]
    rw [gasCodes, hm, if_neg Bool.false_ne_true, ite_singleton_eq_filter hminimum,
      toList_shortfall? hm, ite_singleton_eq_filter hbalance, ← List.filter_append,
      ← List.filter_append]
    rfl

theorem nonceCodes_eq (r : CheckRequest) (policy : GasPolicy) :
    r.nonceCodes = [.nonceLow].filter fun code => r.Warrants policy code := by
  apply ite_singleton_eq_filter
  rw [Warrants, ← UInt64.lt_iff_toNat_lt, Bool.and_eq_true, decide_eq_true_eq, Bool.not_eq_true',
    and_comm]

theorem run_eq : r.run policy = Check.reports.filter fun c => r.Warrants policy c.code := by
  have hreports : Check.reports = ([.gasBelowMinimum, .gasBelowRecommended, .gasBelowUse,
      .balanceShort] ++ [.nonceLow] : List CheckCode).map Check.ofCode := rfl
  rw [run, gasCodes_eq, r.nonceCodes_eq policy, ← List.filter_append, hreports,
    List.filter_map]
  rfl

theorem mem_codes_run {code : CheckCode} :
    code ∈ (r.run policy).map (·.code) ↔ r.Warrants policy code := by
  have hall : code ∈ Check.reports.map (·.code) := by cases code <;> decide
  have hcodes : (r.run policy).map (·.code) =
      (Check.reports.map (·.code)).filter fun code => r.Warrants policy code := by
    rw [run_eq, List.filter_map]
    rfl
  rw [hcodes, List.mem_filter, and_iff_right hall, decide_eq_true_eq]

/-- No finding is forbidden exactly if the gas is not the account's to pay, or it is at least the
minimum and the balance covers it together with the value. -/
theorem forall_mem_run_isForbidden :
    (∀ c ∈ r.run policy, c.isForbidden = false) ↔ r.isMultisig = true ∨
      policy.minimumGasLimit ≤ r.gasLimit ∧ r.maxGasCost + r.sendValue ≤ r.balance := by
  have hforbidden : (∀ c ∈ r.run policy, c.isForbidden = false) ↔
      ¬r.Warrants policy .gasBelowMinimum ∧ ¬r.Warrants policy .balanceShort := by
    rw [run_eq]
    simp [Check.reports, Check.isForbidden]
  rw [hforbidden, warrants_gasBelowMinimum, warrants_balanceShort, ← UInt64.not_lt, Wei.le_def,
    ← Nat.not_lt, ← Wei.lt_def]
  cases r.isMultisig <;> simp

/-- The balance is found short exactly if the account pays for the gas and the balance does not
cover it together with the value. -/
theorem balanceShort_mem_run : Check.ofCode .balanceShort ∈ r.run policy ↔
    r.isMultisig = false ∧ r.balance < r.maxGasCost + r.sendValue := by
  have hreport : Check.ofCode .balanceShort ∈ Check.reports := by decide
  rw [run_eq, List.mem_filter, and_iff_right hreport, decide_eq_true_eq]
  exact warrants_balanceShort

/-- The findings are those that the request warrants, in the order and with the levels of
`Check.reports`. A tally that records them counts, in words, one run, each finding, and among them
the forbidden ones. -/
theorem run_eq_filter_reports (r : CheckRequest) (policy : GasPolicy) (t : CheckTally) :
    let found := r.run policy
    found = Check.reports.filter (fun c => r.Warrants policy c.code) ∧
      (t.record found).runs = t.runs + 1 ∧
      (t.record found).fired = t.fired + UInt64.ofNat found.length ∧
      (t.record found).forbidden =
        t.forbidden + UInt64.ofNat (found.filter fun c => c.level = some .forbidden).length := by
  intro found
  refine ⟨run_eq, rfl, rfl, ?_⟩
  rw [← List.countP_eq_length_filter]
  rfl

end CheckRequest

end Countersign
