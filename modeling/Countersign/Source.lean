import Countersign.Fee.Level
import Countersign.Gas.Estimate
import Countersign.Gas.Limit
import Countersign.Nonce
import Countersign.Rule.Catalog

/-! The sources that a draft's approval draws on. Each is a function that may fail; none is asked
twice for the same draft. -/

namespace Countersign

inductive SourceError where
  | unavailable (source : String) (reason : String)
  | malformed (source : String) (reason : String)
deriving DecidableEq

def SourceError.message : SourceError → String
  | unavailable source reason => s!"{source} unavailable: {reason}"
  | malformed source reason => s!"{source} returned malformed data: {reason}"

abbrev Answer (α : Type) := Except SourceError α

structure Sources where
  simulation : Draft → Answer Simulation
  /-- The gas that earlier transactions of the draft's shape used. -/
  history : Draft → Answer UInt64
  nonce : (chain : UInt64) → Address → Answer UInt64
  balance : (chain : UInt64) → Address → Answer Wei
  /-- The gas limit of the latest block, where the chain reports one. -/
  blockLimit : (chain : UInt64) → Answer (Option UInt64)
  /-- The nonce after the locally queued transactions, if there are any. -/
  queuedNonce : (chain : UInt64) → Address → Answer (Option UInt64)
  pending : (chain : UInt64) → Address → Answer (List PendingCost)
  /-- The levels of the fee market, with a custom one for the price that is given. -/
  feeLevels : (chain : UInt64) → Option Wei → Answer (List FeeLevel)
  /-- The fee that a rollup charges for its base chain. -/
  baseFee : Draft → Answer (Option Wei)
  rules : Answer RuleCatalog
  /-- The nonces of a multisig account; other accounts have no such source. -/
  safeNonces : Option ((chain : UInt64) → Address → Answer SafeNonces)

inductive Question where
  | simulation
  | history
  | nonce
  | balance
  | blockLimit
  | queuedNonce
  | pending
  | feeLevels
  | baseFee
  | rules
  | safeNonces
deriving DecidableEq

/-- A computation that asks sources, stops at the first failure it does not absorb, and keeps the
questions it asked. -/
abbrev Inquiry := ExceptT SourceError (StateM (List Question))

namespace Inquiry

def ask (question : Question) (answer : Answer α) : Inquiry α := do
  modify (· ++ [question])
  match answer with
  | .ok a => return a
  | .error e => throw e

/-- Asks a source and takes `default` if it fails. -/
def askOr (question : Question) (default : α) (answer : Answer α) : Inquiry α := do
  modify (· ++ [question])
  match answer with
  | .ok a => return a
  | .error _ => return default

/-- The result of an inquiry and the questions it asked, in order. -/
def conduct (inquiry : Inquiry α) : Answer α × List Question := inquiry.run.run []

end Inquiry

end Countersign
