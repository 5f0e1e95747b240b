import Countersign.Fee.Cost
import Countersign.Proofs.Check.Findings
import Mathlib.Tactic.Linarith
import Mathlib.Tactic.Ring

/-! Whether the balance covers the gas limit that is found for it. A limit that the balance buys is
covered. A full one need not be: the balance is compared with what the figure costs before it is
rounded up, so it may fall short by less than the price of one unit of gas, and a balance whose
thousandfold is out of range is not compared at all. -/

namespace Countersign.LimitRequest

/-- What a gas limit costs, without a bound. -/
def limitCost (r : LimitRequest) (limit : UInt64) : ℕ := limit.toNat * r.price.toNat

/-- The balance covers a gas limit together with the value and the transactions ahead. -/
def Covers (r : LimitRequest) (limit : UInt64) : Prop :=
  r.limitCost limit + r.sendValue.toNat + (pendingCost r.pending r.nonce).toNat ≤ r.balance.toNat

instance (r : LimitRequest) (limit : UInt64) : Decidable (r.Covers limit) :=
  inferInstanceAs (Decidable (_ ≤ _))

variable {r : LimitRequest} {policy : GasPolicy} {limit : UInt64}

/-- While something is left, the transactions ahead cost no more than the balance, so their sum is
exact. -/
theorem covers_iff (h : 0 < r.left) : r.Covers limit ↔ r.limitCost limit ≤ r.left := by
  have hbalance := r.balance.lt
  rw [Covers, toNat_pendingCost]
  rw [left] at h ⊢
  omega

/-! ### Limits that the balance buys -/

theorem covers_of_adapted (h : (r.unbounded policy).2 = .adapted) :
    r.Covers (Word.cap (r.unbounded policy).1) := by
  obtain ⟨hpos, hfull, hleast⟩ := basis_eq_adapted_iff.1 h
  have hprice := price_pos hpos hfull
  have hquotient : (0 : ℚ) ≤ r.left / r.price.toNat :=
    div_nonneg (by exact_mod_cast hpos.le) hprice.le
  have hcap : (Word.cap (r.unbounded policy).1).toNat ≤ ⌊(r.left / r.price.toNat : ℚ)⌋₊ := by
    rw [unbounded_adapted hpos hfull (not_lt.2 hleast), Word.toNat_cap]
    exact min_le_left _ _
  have hlimit : ((Word.cap (r.unbounded policy).1).toNat : ℚ) ≤ r.left / r.price.toNat :=
    (Nat.cast_le.2 hcap).trans (Nat.floor_le hquotient)
  have hcost := (le_div_iff₀ hprice).1 hlimit
  rw [covers_iff hpos, limitCost]
  exact_mod_cast hcost

/-! ### Full limits -/

/-- The full figure rounded up, as a limit. -/
def fullLimit (r : LimitRequest) : ℕ := min ⌈r.gas.toNat * r.ratio.value⌉₊ (UInt64.size - 1)

/-- A full limit costs less than what is left and one unit of gas more. -/
theorem fullLimit_mul_price_lt (h : 0 < r.left) (hcost : r.cost r.ratio.value ≤ r.left) :
    r.fullLimit * r.price.toNat < r.left + r.price.toNat := by
  have hfigure : (0 : ℚ) ≤ r.gas.toNat * r.ratio.value :=
    mul_nonneg (Nat.cast_nonneg _) r.ratio.value_nonneg
  have hlimit : (r.fullLimit : ℚ) < r.gas.toNat * r.ratio.value + 1 :=
    (Nat.cast_le.2 (min_le_left _ _)).trans_lt (Nat.ceil_lt_add_one hfigure)
  rcases Nat.eq_zero_or_pos r.price.toNat with hzero | hprice
  · rw [hzero]
    simpa using h
  · have hprice : (0 : ℚ) < r.price.toNat := by exact_mod_cast hprice
    suffices hcast : (r.fullLimit * r.price.toNat : ℚ) < r.left + r.price.toNat by
      exact_mod_cast hcast
    calc (r.fullLimit * r.price.toNat : ℚ)
        < (r.gas.toNat * r.ratio.value + 1) * r.price.toNat :=
          mul_lt_mul_of_pos_right hlimit hprice
      _ = r.cost r.ratio.value + r.price.toNat := by rw [cost]; ring
      _ ≤ r.left + r.price.toNat := by linarith

theorem limitCost_of_full (h : (r.unbounded policy).2 = .full) :
    r.limitCost (Word.cap (r.unbounded policy).1) = r.fullLimit * r.price.toNat := by
  obtain ⟨hpos, hfull⟩ := basis_eq_full_iff.1 h
  rw [limitCost, unbounded_full hpos hfull, Word.toNat_cap, fullLimit]

theorem covers_iff_of_full (h : (r.unbounded policy).2 = .full) :
    r.Covers (Word.cap (r.unbounded policy).1) ↔ ↑(r.fullLimit * r.price.toNat) ≤ r.left := by
  rw [covers_iff (basis_eq_full_iff.1 h).1, limitCost_of_full h]

theorem limitCost_lt (h : (r.unbounded policy).2 = .full ∨ (r.unbounded policy).2 = .adapted)
    (hrange : r.left * 1000 < Wei.size) :
    r.limitCost (Word.cap (r.unbounded policy).1) < r.left + r.price.toNat := by
  rcases h with hfull | hadapted
  · obtain ⟨hpos, hcovers⟩ := basis_eq_full_iff.1 hfull
    rw [limitCost_of_full hfull, Nat.cast_mul]
    exact fullLimit_mul_price_lt hpos (hcovers.resolve_right (not_le.2 hrange))
  · obtain ⟨hpos, hfull, -⟩ := basis_eq_adapted_iff.1 hadapted
    have hprice : 0 < r.price.toNat := by exact_mod_cast price_pos hpos hfull
    have hcost := (covers_iff hpos).1 (covers_of_adapted hadapted)
    omega

/-! ### The check of the balance -/

/-- The check of the balance asks for less than `Covers`, as it leaves the transactions ahead
out. -/
theorem balanceShort_notMem_run (h : r.Covers limit) {c : CheckRequest}
    (hcost : c.maxGasCost = FeeCost.of limit r.price none) (hvalue : c.sendValue = r.sendValue)
    (hbalance : c.balance = r.balance) : Check.ofCode .balanceShort ∉ c.run policy := by
  rw [CheckRequest.balanceShort_mem_run, not_and, hcost, hvalue, hbalance]
  intro _
  rw [Covers, limitCost] at h
  rw [Wei.lt_def, FeeCost.toNat_of_add, Option.getD_none, Wei.toNat_zero]
  omega

/-- One and a half times the figure is 31501.5, which costs 63003. -/
def halfRequest (balance : ℕ) : LimitRequest where
  price := .cap 2
  nonce := 0
  pending := []
  balance := .cap balance
  sendValue := .zero
  gas := 21001
  ratio := .standard
  blockLimit := none

/-- The checks of a draft that is signed with the limit found for it. -/
def halfCheck (balance : ℕ) : CheckRequest :=
  let r := halfRequest balance
  let limit := (r.solve .standard).limit
  { recommendedGas := r.gas
    ratio := r.ratio
    recommendedNonce := r.nonce
    gasLimit := limit
    nonce := r.nonce
    maxGasCost := FeeCost.of limit r.price none
    sendValue := r.sendValue
    balance := r.balance
    replaces := false
    isMultisig := false }

/-- A limit that the balance buys is covered. A full one is covered exactly if what is left pays for
it as it is rounded up, and falls short by less than the price of one unit of gas unless the
thousandfold of what is left is out of range. A covered limit passes the check of the balance. -/
theorem covers_solve (r : LimitRequest) (policy : GasPolicy) (hblock : r.blockLimit = none)
    (hbasis : (r.solve policy).basis = .full ∨ (r.solve policy).basis = .adapted) :
    let s := r.solve policy
    (r.Covers s.limit ↔ (s.basis = .full → ↑(r.fullLimit * r.price.toNat) ≤ r.left)) ∧
      (r.left * 1000 < Wei.size → r.limitCost s.limit < r.left + r.price.toNat) ∧
      (r.Covers s.limit → ∀ (c : CheckRequest) (p : GasPolicy),
        c.maxGasCost = FeeCost.of s.limit r.price none → c.sendValue = r.sendValue →
        c.balance = r.balance → Check.ofCode .balanceShort ∉ c.run p) := by
  rw [solve_of_none hblock, r.unclamped_eq] at hbasis ⊢
  dsimp only at hbasis ⊢
  refine ⟨?_, limitCost_lt hbasis, fun h c p => balanceShort_notMem_run h⟩
  rcases hbasis with hfull | hadapted
  · rw [covers_iff_of_full hfull]
    exact ⟨fun h _ => h, fun h => h hfull⟩
  · refine iff_of_true (covers_of_adapted hadapted) fun hfull => ?_
    rw [hadapted] at hfull
    cases hfull

/-- What pays for the figure rounded up covers it. -/
theorem covers_solve_half :
    let r := halfRequest 63004
    (r.solve .standard).basis = .full ∧ r.Covers (r.solve .standard).limit ∧
      Check.ofCode .balanceShort ∉ (halfCheck 63004).run .standard := by
  intro r
  have hfull : (r.solve .standard).basis = .full := by decide +kernel
  obtain ⟨hiff, -, hcheck⟩ := covers_solve r .standard rfl (.inl hfull)
  have hcovers := hiff.2 fun _ => by decide +kernel
  exact ⟨hfull, hcovers, hcheck hcovers (halfCheck 63004) .standard rfl rfl rfl⟩

/-- What pays for the figure but not for rounding it up does not cover the limit that is taken to be
paid for, and the check of the balance forbids it. -/
theorem half_not_covered :
    let r := halfRequest 63003
    r.blockLimit = none ∧ (r.solve .standard).basis = .full ∧
      ¬r.Covers (r.solve .standard).limit ∧
      Check.ofCode .balanceShort ∈ (halfCheck 63003).run .standard := by
  decide +kernel

end Countersign.LimitRequest
