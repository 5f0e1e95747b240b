import Countersign.Gas.Policy
import Countersign.Wei

/-! The gas limit that an account can pay for. What the account still has to pay for transactions
ahead of the draft, and the value that the draft sends, come off its balance first. If the rest
covers the scaled figure in full, that is the limit; if not, the limit is what the rest buys, but
never less than the figure scaled by no more than the policy's cap. All comparisons are between
products, so nothing is rounded before it is compared. -/

namespace Countersign

/-- The cost of a transaction of the same account that is not confirmed yet. -/
structure PendingCost where
  nonce : UInt64
  value : Wei
  price : Wei
  gas : UInt64
deriving DecidableEq

def PendingCost.total (c : PendingCost) : Wei := c.value + Wei.ofWord c.gas * c.price

/-- What the transactions ahead of `nonce` cost together. -/
def pendingCost (pending : List PendingCost) (nonce : UInt64) : Wei :=
  (pending.filter fun c => c.nonce < nonce).foldl (fun sum c => sum + c.total) Wei.zero

/-- How a gas limit was arrived at. -/
inductive LimitBasis where
  /-- Nothing is left to pay for gas: the least figure. -/
  | noBalance
  /-- The full figure is paid for. -/
  | full
  /-- As much gas as the balance buys. -/
  | adapted
  /-- The balance buys too little: the least figure. -/
  | least
deriving DecidableEq

def LimitBasis.text : LimitBasis → String
  | noBalance => "no_available_balance"
  | full => "fully_affordable"
  | adapted => "balance_adapted"
  | least => "adapted_below_floor"

/-- What a gas limit depends on, the policy apart. -/
structure LimitRequest where
  price : Wei
  nonce : UInt64
  pending : List PendingCost
  balance : Wei
  sendValue : Wei
  /-- The estimated figure. -/
  gas : UInt64
  ratio : GasRatio
  blockLimit : Option UInt64

structure GasLimit where
  limit : UInt64
  basis : LimitBasis
  /-- The limit was above the block gas limit and was reduced. -/
  clamped : Bool
deriving DecidableEq

namespace GasLimit

/-- A limit reduced to what fits a block, if the block's limit is known. -/
def within (policy : GasPolicy) (blockLimit : Option UInt64) (found : UInt64 × LimitBasis) :
    GasLimit :=
  match blockLimit with
  | none => ⟨found.1, found.2, false⟩
  | some block =>
    if block < found.1 then ⟨policy.blockClamp block, found.2, true⟩ else ⟨found.1, found.2, false⟩

theorem basis_within (policy : GasPolicy) (blockLimit : Option UInt64)
    (found : UInt64 × LimitBasis) : (within policy blockLimit found).basis = found.2 := by
  unfold within
  split
  · rfl
  · split <;> rfl

end GasLimit

namespace LimitRequest

def available? (r : LimitRequest) : Option Wei :=
  (r.balance.minus? (r.sendValue + pendingCost r.pending r.nonce)).filter (· ≠ Wei.zero)

/-- The ratio that the least figure is scaled by. -/
def leastRatio (r : LimitRequest) (policy : GasPolicy) : GasRatio :=
  min r.ratio policy.lowBalanceCap

/-- A thousand times the cost of the estimated figure scaled by `ratio`. -/
def scaledCost (r : LimitRequest) (ratio : GasRatio) : Wei :=
  r.price * Wei.ofWord r.gas * Wei.ofWord ratio.milli.toUInt64

/-- The limit when `available` is left for gas. A zero price is always paid for, so the price that
is divided by is positive. -/
def affordable (r : LimitRequest) (policy : GasPolicy) (available : Wei) : UInt64 × LimitBasis :=
  let scaled := available * Wei.ofWord 1000
  if r.scaledCost r.ratio ≤ scaled then (r.ratio.ceilOf r.gas, .full)
  else if scaled < r.scaledCost (r.leastRatio policy) then
    ((r.leastRatio policy).floorOf r.gas, .least)
  else (Word.cap (available / r.price).toNat, .adapted)

def unclamped (r : LimitRequest) (policy : GasPolicy) : UInt64 × LimitBasis :=
  match r.available? with
  | none => ((r.leastRatio policy).floorOf r.gas, .noBalance)
  | some available => r.affordable policy available

def solve (r : LimitRequest) (policy : GasPolicy) : GasLimit :=
  GasLimit.within policy r.blockLimit (r.unclamped policy)

variable {r : LimitRequest} {policy : GasPolicy} {block : UInt64}

theorem solve_of_none (h : r.blockLimit = none) :
    r.solve policy = ⟨(r.unclamped policy).1, (r.unclamped policy).2, false⟩ := by
  rw [solve, h]
  rfl

theorem solve_of_le (h : r.blockLimit = some block) (hle : (r.unclamped policy).1 ≤ block) :
    r.solve policy = ⟨(r.unclamped policy).1, (r.unclamped policy).2, false⟩ := by
  rw [solve, h, GasLimit.within]
  exact if_neg (UInt64.not_lt.2 hle)

theorem solve_of_lt (h : r.blockLimit = some block) (hlt : block < (r.unclamped policy).1) :
    r.solve policy = ⟨policy.blockClamp block, (r.unclamped policy).2, true⟩ := by
  rw [solve, h, GasLimit.within]
  exact if_pos hlt

theorem solve_of_not_clamped (h : (r.solve policy).clamped = false) :
    r.solve policy = ⟨(r.unclamped policy).1, (r.unclamped policy).2, false⟩ := by
  cases hb : r.blockLimit with
  | none => exact solve_of_none hb
  | some block =>
    apply solve_of_le hb
    rw [← UInt64.not_lt]
    intro hlt
    rw [solve_of_lt hb hlt] at h
    cases h

@[simp] theorem basis_solve (r : LimitRequest) (policy : GasPolicy) :
    (r.solve policy).basis = (r.unclamped policy).2 :=
  GasLimit.basis_within _ _ _

end LimitRequest

end Countersign
