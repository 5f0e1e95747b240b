import Countersign.Proofs.Gas.Unbounded
import Countersign.Proofs.Settings.Headroom
import Mathlib.Algebra.Order.BigOperators.Group.List

/-! Gas limits between the least figure and the full one. Where the balance does not cover the full
figure, the limit is what the balance buys, and the least figure if that is more: it never leaves
the two, and it does not fall when the balance grows or when the price, the value or what goes ahead
of the draft shrinks. -/

namespace Countersign.LimitRequest

variable {r r' : LimitRequest} {policy : GasPolicy}

theorem floor_left_div_price (h : ¬0 < r.left) : ⌊(r.left / r.price.toNat : ℚ)⌋₊ = 0 := by
  have hneg : (r.left : ℚ) ≤ 0 := by exact_mod_cast not_lt.1 h
  exact Nat.floor_of_nonpos (div_nonpos_of_nonpos_of_nonneg hneg (Nat.cast_nonneg _))

/-! ### One figure for all cases -/

/-- What the balance buys, the least figure at least. -/
def bought (r : LimitRequest) (policy : GasPolicy) : ℕ :=
  max ⌊r.gas.toNat * r.leastValue policy⌋₊ ⌊(r.left / r.price.toNat : ℚ)⌋₊

theorem figure_of_covers (h : 0 < r.left) (hfull : r.CoversFull) :
    (r.unbounded policy).1 = ⌈r.gas.toNat * r.ratio.value⌉₊ := by
  rw [unbounded_full h hfull]

theorem figure_of_not_covers (h : ¬(0 < r.left ∧ r.CoversFull)) :
    (r.unbounded policy).1 = r.bought policy := by
  rw [bought]
  by_cases hpos : 0 < r.left
  · have hfull : ¬r.CoversFull := fun hc => h ⟨hpos, hc⟩
    have hprice := price_pos hpos hfull
    by_cases hleast : r.left < r.cost (r.leastValue policy)
    · have hbuys : (r.left / r.price.toNat : ℚ) ≤ r.gas.toNat * r.leastValue policy :=
        (div_le_iff₀' hprice).2 hleast.le
      rw [unbounded_least hpos hfull hleast, max_eq_left (Nat.floor_le_floor hbuys)]
    · have hbuys : r.gas.toNat * r.leastValue policy ≤ (r.left / r.price.toNat : ℚ) :=
        (le_div_iff₀' hprice).2 (not_lt.1 hleast)
      rw [unbounded_adapted hpos hfull hleast, max_eq_right (Nat.floor_le_floor hbuys)]
  · rw [unbounded_noBalance (not_lt.1 hpos), floor_left_div_price hpos, max_eq_left (Nat.zero_le _)]

/-! ### Between the least figure and the full one -/

theorem least_le_full (r : LimitRequest) (policy : GasPolicy) :
    ⌊r.gas.toNat * r.leastValue policy⌋₊ ≤ ⌈r.gas.toNat * r.ratio.value⌉₊ := by
  have hmul : r.gas.toNat * r.leastValue policy ≤ r.gas.toNat * r.ratio.value :=
    mul_le_mul_of_nonneg_left (min_le_left _ _) (Nat.cast_nonneg _)
  exact (Nat.floor_le_floor hmul).trans (Nat.floor_le_ceil _)

theorem bought_le_full (h : ¬(0 < r.left ∧ r.CoversFull)) :
    r.bought policy ≤ ⌈r.gas.toNat * r.ratio.value⌉₊ := by
  apply max_le (r.least_le_full policy)
  by_cases hpos : 0 < r.left
  · have hfull : ¬r.CoversFull := fun hc => h ⟨hpos, hc⟩
    have hcost : (r.left : ℚ) < r.cost r.ratio.value := not_le.1 fun hc => hfull (.inl hc)
    have hbuys : (r.left / r.price.toNat : ℚ) < r.gas.toNat * r.ratio.value :=
      (div_lt_iff₀' (price_pos hpos hfull)).2 hcost
    exact (Nat.floor_le_floor hbuys.le).trans (Nat.floor_le_ceil _)
  · rw [floor_left_div_price hpos]
    exact Nat.zero_le _

theorem least_le_figure (r : LimitRequest) (policy : GasPolicy) :
    ⌊r.gas.toNat * r.leastValue policy⌋₊ ≤ (r.unbounded policy).1 := by
  by_cases h : 0 < r.left ∧ r.CoversFull
  · rw [figure_of_covers h.1 h.2]
    exact r.least_le_full policy
  · rw [figure_of_not_covers h]
    exact le_max_left _ _

theorem figure_le_full (r : LimitRequest) (policy : GasPolicy) :
    (r.unbounded policy).1 ≤ ⌈r.gas.toNat * r.ratio.value⌉₊ := by
  by_cases h : 0 < r.left ∧ r.CoversFull
  · rw [figure_of_covers h.1 h.2]
  · rw [figure_of_not_covers h]
    exact bought_le_full h

theorem floorOf_le_unclamped (r : LimitRequest) (policy : GasPolicy) :
    (min r.ratio policy.lowBalanceCap).floorOf r.gas ≤ (r.unclamped policy).1 := by
  rw [r.unclamped_eq, GasRatio.floorOf_eq, GasRatio.value_min]
  exact Word.cap_le_cap (r.least_le_figure policy)

theorem unclamped_le_ceilOf (r : LimitRequest) (policy : GasPolicy) :
    (r.unclamped policy).1 ≤ r.ratio.ceilOf r.gas := by
  rw [r.unclamped_eq, GasRatio.ceilOf_eq]
  exact Word.cap_le_cap (r.figure_le_full policy)

theorem lowBalanceCap_lt_of_adapted (h : (r.unclamped policy).2 = .adapted) :
    policy.lowBalanceCap.milli < r.ratio.milli := by
  rw [r.unclamped_eq] at h
  obtain ⟨-, hfull, hleast⟩ := basis_eq_adapted_iff.1 h
  rw [← UInt32.not_le, ← GasRatio.value_le_iff]
  intro hcap
  -- With a cap that is no lower than the ratio, the least figure is the full one, and it is covered.
  apply hfull
  left
  rwa [leastValue, min_eq_left hcap] at hleast

theorem limit_le_block {block : UInt64} (hpercent : policy.headroomPercent ≤ 100)
    (h : r.blockLimit = some block) : (r.solve policy).limit ≤ block := by
  rcases UInt64.lt_or_le block (r.unclamped policy).1 with hlt | hle
  · rw [solve_of_lt h hlt]
    exact GasPolicy.blockClamp_le hpercent block
  · rw [solve_of_le h hle]
    exact hle

theorem clamped_iff {block : UInt64} (h : r.blockLimit = some block) :
    (r.solve policy).clamped = true ↔ block < (r.unclamped policy).1 := by
  rcases UInt64.lt_or_le block (r.unclamped policy).1 with hlt | hle
  · simp [solve_of_lt h hlt, hlt]
  · simp [solve_of_le h hle, UInt64.not_lt.2 hle]

/-- Twice the figure costs 84000. The balance leaves 78000 behind the transaction ahead. -/
def sampleRequest : LimitRequest where
  price := .cap 2
  nonce := 7
  pending := [⟨6, .zero, .cap 1, 21000⟩, ⟨7, .cap 500000, .cap 1, 21000⟩]
  balance := .cap 100000
  sendValue := .cap 1000
  gas := 21000
  ratio := ⟨2000⟩
  blockLimit := none

/-- Without a block limit, a gas limit is between the least figure and the full one. A block limit
takes it to the block gas limit at most and changes neither a lower limit nor the basis. -/
theorem solve_bounds (r : LimitRequest) (policy : GasPolicy) :
    let free := { r with blockLimit := none }.solve policy
    ((min r.ratio policy.lowBalanceCap).floorOf r.gas ≤ free.limit ∧
        free.limit ≤ r.ratio.ceilOf r.gas) ∧
      (free.basis = .adapted → policy.lowBalanceCap.milli < r.ratio.milli) ∧
      (∀ settings : Settings, settings.gasPolicy = .ok policy → policy.headroomPercent ≤ 100) ∧
      (policy.headroomPercent ≤ 100 → ∀ block : UInt64,
        let s := { r with blockLimit := some block }.solve policy
        s.limit ≤ block ∧ (s.clamped = true ↔ block < free.limit) ∧ s.basis = free.basis) := by
  intro free
  have hfree : free = ⟨(r.unclamped policy).1, (r.unclamped policy).2, false⟩ := solve_of_none rfl
  rw [hfree]
  refine ⟨⟨r.floorOf_le_unclamped policy, r.unclamped_le_ceilOf policy⟩,
    lowBalanceCap_lt_of_adapted, fun settings => Settings.headroomPercent_of_gasPolicy, ?_⟩
  intro hpercent block s
  exact ⟨limit_le_block hpercent rfl, clamped_iff rfl, basis_solve _ _⟩

theorem solve_bounds_sample :
    let s := { sampleRequest with blockLimit := some 36000 }.solve .standard
    s.limit ≤ 36000 ∧ (s.clamped = true ↔ 36000 < (sampleRequest.solve .standard).limit) ∧
      GasPolicy.standard.lowBalanceCap.milli < sampleRequest.ratio.milli := by
  intro s
  obtain ⟨-, hcap, hsettings, hblock⟩ := solve_bounds sampleRequest .standard
  have hpercent := hsettings .standard (by decide +kernel)
  obtain ⟨hle, hclamped, -⟩ := hblock hpercent 36000
  exact ⟨hle, hclamped, hcap (by decide +kernel)⟩

/-! ### Easier requests -/

/-- The second request asks for the same figure, with a balance that is no smaller and a price, a
value, a nonce and transactions ahead that are no larger. -/
structure Eases (r r' : LimitRequest) : Prop where
  gas : r'.gas = r.gas
  ratio : r'.ratio = r.ratio
  balance : r.balance ≤ r'.balance
  price : r'.price ≤ r.price
  sendValue : r'.sendValue ≤ r.sendValue
  nonce : r'.nonce ≤ r.nonce
  pending : r'.pending.Sublist r.pending

namespace Eases

theorem ahead_le (h : Eases r r') : r'.ahead ≤ r.ahead := by
  have hfewer : (r'.pending.filter fun c => c.nonce < r'.nonce).Sublist
      (r.pending.filter fun c => c.nonce < r.nonce) := by
    refine (h.pending.filter _).trans (List.monotone_filter_right _ fun c hc => ?_)
    simp only [decide_eq_true_eq] at hc ⊢
    exact UInt64.lt_of_lt_of_le hc h.nonce
  exact (hfewer.map _).sum_le_sum fun _ _ => Nat.zero_le _

theorem left_le (h : Eases r r') : r.left ≤ r'.left := by
  have hahead := h.ahead_le
  have hbalance := Wei.le_def.1 h.balance
  have hvalue := Wei.le_def.1 h.sendValue
  rw [left, left]
  omega

theorem price_le (h : Eases r r') : (r'.price.toNat : ℚ) ≤ r.price.toNat :=
  Nat.cast_le.2 (Wei.le_def.1 h.price)

theorem leastValue_eq (h : Eases r r') : r'.leastValue policy = r.leastValue policy := by
  rw [leastValue, leastValue, h.ratio]

theorem coversFull (h : Eases r r') (hfull : r.CoversFull) : r'.CoversFull := by
  have hleft : (r.left : ℚ) ≤ r'.left := Int.cast_le.2 h.left_le
  rcases hfull with hcost | hrange
  · left
    have hfigure : (0 : ℚ) ≤ r.gas.toNat * r.ratio.value :=
      mul_nonneg (Nat.cast_nonneg _) r.ratio.value_nonneg
    calc r'.cost r'.ratio.value
        = r'.price.toNat * (r.gas.toNat * r.ratio.value) := by rw [cost, h.gas, h.ratio]
      _ ≤ r.price.toNat * (r.gas.toNat * r.ratio.value) :=
        mul_le_mul_of_nonneg_right h.price_le hfigure
      _ ≤ r.left := hcost
      _ ≤ r'.left := hleft
  · right
    have := h.left_le
    omega

theorem bought_le (h : Eases r r') (hfull : ¬(0 < r'.left ∧ r'.CoversFull)) :
    r.bought policy ≤ r'.bought policy := by
  rw [bought, bought, h.gas, h.leastValue_eq]
  refine max_le_max_left _ ?_
  by_cases hpos : 0 < r.left
  · have hpos' : 0 < r'.left := hpos.trans_le h.left_le
    have hprice := price_pos hpos' fun hc => hfull ⟨hpos', hc⟩
    apply Nat.floor_le_floor
    exact div_le_div₀ (by exact_mod_cast hpos'.le) (Int.cast_le.2 h.left_le) hprice h.price_le
  · rw [floor_left_div_price hpos]
    exact Nat.zero_le _

theorem figure_le (h : Eases r r') (policy : GasPolicy) :
    (r.unbounded policy).1 ≤ (r'.unbounded policy).1 := by
  -- The easier request is either at the top already, or the balance covers neither in full.
  by_cases hcovers : 0 < r'.left ∧ r'.CoversFull
  · rw [figure_of_covers hcovers.1 hcovers.2, h.gas, h.ratio]
    exact r.figure_le_full policy
  · have hbefore : ¬(0 < r.left ∧ r.CoversFull) := fun ⟨hpos, hfull⟩ =>
      hcovers ⟨hpos.trans_le h.left_le, h.coversFull hfull⟩
    rw [figure_of_not_covers hbefore, figure_of_not_covers hcovers]
    exact h.bought_le hcovers

end Eases

/-- An easier request has no lower limit. -/
theorem limit_solve_mono (policy : GasPolicy) (h : Eases r r') (hr : r.blockLimit = none)
    (hr' : r'.blockLimit = none) : (r.solve policy).limit ≤ (r'.solve policy).limit := by
  rw [solve_of_none hr, solve_of_none hr', r.unclamped_eq, r'.unclamped_eq]
  exact Word.cap_le_cap (h.figure_le policy)

theorem limit_solve_mono_sample :
    let eased := { sampleRequest with price := .cap 1, pending := sampleRequest.pending.tail }
    (sampleRequest.solve .standard).basis = .adapted ∧ (eased.solve .standard).basis = .full ∧
      (sampleRequest.solve .standard).limit ≤ (eased.solve .standard).limit := by
  intro eased
  have h : Eases sampleRequest eased :=
    ⟨rfl, rfl, by decide, by decide, by decide, by decide, sampleRequest.pending.tail_sublist⟩
  exact ⟨by decide +kernel, by decide +kernel, limit_solve_mono .standard h rfl rfl⟩

end Countersign.LimitRequest
