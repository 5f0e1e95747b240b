import Countersign.Gas.Estimate
import Countersign.Gas.Limit

/-! Gas plans: the estimated figure with its ratio, the recommended nonce, and the limit that the
account can pay for. -/

namespace Countersign

structure GasPlan where
  gas : UInt64
  ratio : GasRatio
  nonce : UInt64
  solution : GasLimit
deriving DecidableEq

def GasPlan.limit (p : GasPlan) : UInt64 := p.solution.limit

/-- What a gas plan depends on, the policy apart. -/
structure PlanRequest where
  chainId : UInt64
  estimate : GasEstimate
  recommendedNonce : UInt64
  /-- The nonce that the draft is signed with. -/
  nonce : UInt64
  price : Wei
  pending : List PendingCost
  balance : Wei
  sendValue : Wei
  blockLimit : Option UInt64

namespace PlanRequest

def ratio (r : PlanRequest) (policy : GasPolicy) : GasRatio := r.estimate.ratio policy r.chainId

def limitRequest (r : PlanRequest) (policy : GasPolicy) : LimitRequest where
  price := r.price
  nonce := r.nonce
  pending := r.pending
  balance := r.balance
  sendValue := r.sendValue
  gas := r.estimate.gas
  ratio := r.ratio policy
  blockLimit := r.blockLimit

def plan (r : PlanRequest) (policy : GasPolicy) : GasPlan where
  gas := r.estimate.gas
  ratio := r.ratio policy
  nonce := r.recommendedNonce
  solution := (r.limitRequest policy).solve policy

end PlanRequest

end Countersign
