import Countersign.Source

/-! Gathering what a draft's approval needs from all sources at once. The history of gas use is
asked for only if neither the simulation nor the draft names a figure. A failing history or base fee
counts as absent; any other failure ends the gathering. -/

namespace Countersign

/-- The state of the chain as one draft needs it. -/
structure Snapshot where
  fingerprint : Fingerprint
  estimate : GasEstimate
  onChainNonce : UInt64
  queuedNonce : Option UInt64
  balance : Wei
  pending : List PendingCost
  blockLimit : Option UInt64
  baseFee : Option Wei
  feeLevels : List FeeLevel
  safe : Option SafeNonces
deriving DecidableEq

structure Gathered where
  fingerprint : Fingerprint
  simulation : Simulation
  snapshot : Snapshot
  catalog : RuleCatalog

namespace Sources

/-- The gas figure of a draft that was simulated. -/
def estimate (s : Sources) (policy : GasPolicy) (draft : Draft) (simulation : Simulation) :
    Inquiry GasEstimate :=
  match GasEstimate.known? simulation.declaredGas simulation.gasUsed draft.gasLimit with
  | some e => return e
  | none => do
    let used ← Inquiry.askOr .history none ((s.history draft).map some)
    return GasEstimate.ofHistory policy used

/-- The nonces of a multisig account, where there is a source for them. -/
def askSafeNonces (s : Sources) (draft : Draft) : Inquiry (Option SafeNonces) :=
  match s.safeNonces with
  | none => return none
  | some source => do
    let nonces ← Inquiry.ask .safeNonces (source draft.chainId draft.sender)
    return some nonces

def gather (s : Sources) (policy : GasPolicy) (draft : Draft) : Inquiry Gathered := do
  let chain := draft.chainId
  let simulation ← Inquiry.ask .simulation (s.simulation draft)
  let estimate ← s.estimate policy draft simulation
  let onChainNonce ← Inquiry.ask .nonce (s.nonce chain draft.sender)
  let balance ← Inquiry.ask .balance (s.balance chain draft.sender)
  let blockLimit ← Inquiry.ask .blockLimit (s.blockLimit chain)
  let queuedNonce ← Inquiry.ask .queuedNonce (s.queuedNonce chain draft.sender)
  let pending ← Inquiry.ask .pending (s.pending chain draft.sender)
  let feeLevels ← Inquiry.ask .feeLevels (s.feeLevels chain draft.gasPrice)
  let baseFee ← Inquiry.askOr .baseFee none (s.baseFee draft)
  let safe ← s.askSafeNonces draft
  let catalog ← Inquiry.ask .rules s.rules
  let fingerprint := draft.fingerprint
  return {
    fingerprint, simulation, catalog
    snapshot := {
      fingerprint, estimate, onChainNonce, queuedNonce, balance, pending, blockLimit, baseFee,
      feeLevels, safe } }

end Sources

end Countersign
