import Countersign.Fee.Cost
import Countersign.Gas.Plan
import Countersign.Risk
import Countersign.Snapshot
import Countersign.Verdict

/-! Approval sessions. A session owns what is derived for one draft: outcomes, acknowledgements, the
gas plan and the checks. Whenever something that they depend on changes, they are derived anew as a
whole. Results come with the fingerprint of the draft they were computed for, and those for another
draft are refused. -/

namespace Countersign

structure Account where
  /-- False for an account that is only watched. -/
  canSign : Bool
  /-- The executing signer pays for the gas. -/
  isMultisig : Bool
deriving DecidableEq

inductive SessionError where
  /-- The result is for another draft. -/
  | stale (expected got : Fingerprint)
  | acknowledge (e : AcknowledgeError)
  | unknownRule (rule : String)
  | rulesNotLoaded
deriving DecidableEq

def SessionError.message : SessionError → String
  | stale expected got =>
    s!"result computed for draft {got.text}, current draft is {expected.text}"
  | acknowledge e => e.message
  | unknownRule rule => s!"rule {rule} is not in the catalog"
  | rulesNotLoaded => "rule results have not been applied for this draft"

structure Session where
  draft : Draft
  fingerprint : Fingerprint
  account : Account
  policy : GasPolicy
  catalog : Option RuleCatalog
  facts : Facts
  outcomes : List Outcome
  acknowledged : Acknowledged
  snapshot : Option Snapshot
  feeLevel : Option FeeLevel
  /-- A gas limit that is signed in place of the planned one. -/
  gasLimitOverride : Option UInt64
  /-- The nonce that the draft is signed with, since it was first known. -/
  nonce : Option UInt64
  plan : Option GasPlan
  checks : List Check
  tally : CheckTally
deriving DecidableEq

/-- The nonces that a plan and its checks go by. -/
structure SignedNonce where
  recommended : UInt64
  signed : UInt64
  /-- The lowest nonce that is not found to be too low. -/
  floor : UInt64
deriving DecidableEq

namespace SignedNonce

/-- The nonces of a draft on a multisig account. A nonce set by hand is signed as it is. -/
def ofSafe (draft : Draft) (safe : SafeNonces) : SignedNonce where
  recommended := safe.next
  signed :=
    match draft.nonce, draft.nonceEdited with
    | some nonce, true => nonce
    | own, _ => safe.resolve own safe.next
  floor := safe.current

/-- The nonces of a draft on an ordinary account. -/
def ofChain (draft : Draft) (onChain : UInt64) (queued : Option UInt64) : SignedNonce where
  recommended := Nonce.next onChain queued
  signed :=
    match Nonce.recommend draft onChain queued with
    | .ok nonce => nonce
    | .error _ => draft.nonce.getD (Nonce.next onChain queued)
  floor := Nonce.next onChain queued

def resolve (draft : Draft) (account : Account) (s : Snapshot) : SignedNonce :=
  match s.safe.filter fun _ => account.isMultisig with
  | some safe => ofSafe draft safe
  | none => ofChain draft s.onChainNonce s.queuedNonce

end SignedNonce

/-- What the gas plan of a draft goes by at a fee level. -/
def Draft.planRequest (draft : Draft) (account : Account) (snapshot : Snapshot) (level : FeeLevel) :
    PlanRequest :=
  let nonce := SignedNonce.resolve draft account snapshot
  { chainId := draft.chainId
    estimate := snapshot.estimate
    recommendedNonce := nonce.recommended
    nonce := nonce.signed
    price := level.price
    pending := snapshot.pending
    balance := snapshot.balance
    sendValue := draft.value
    blockLimit := snapshot.blockLimit }

/-- What a draft that is signed with a given gas limit costs. -/
def Snapshot.feeCost (snapshot : Snapshot) (level : FeeLevel) (limit : UInt64) : FeeCost :=
  FeeCost.explain snapshot.estimate.gasUsed limit level.price snapshot.baseFee

/-- What the checks of a draft look at when it is signed with a given gas limit. -/
def Draft.checkRequest (draft : Draft) (account : Account) (snapshot : Snapshot) (level : FeeLevel)
    (plan : GasPlan) (limit : UInt64) : CheckRequest :=
  let nonce := SignedNonce.resolve draft account snapshot
  { recommendedGas := plan.gas
    ratio := plan.ratio
    recommendedNonce := nonce.floor
    gasLimit := limit
    nonce := nonce.signed
    maxGasCost := (snapshot.feeCost level limit).most
    sendValue := draft.value
    balance := snapshot.balance
    replaces := draft.kind.replaces
    isMultisig := account.isMultisig }

namespace Session

def start (draft : Draft) (account : Account) (policy : GasPolicy) : Session where
  draft := draft
  fingerprint := draft.fingerprint
  account := account
  policy := policy
  catalog := none
  facts := .empty
  outcomes := []
  acknowledged := .empty
  snapshot := none
  feeLevel := none
  gasLimitOverride := draft.exactGasLimit
  nonce := none
  plan := none
  checks := []
  tally := .zero

/-- The gas limit that the draft is signed with, once it is known. -/
def gasLimit (s : Session) : Option UInt64 := s.gasLimitOverride.or (s.plan.map (·.limit))

def risk (s : Session) : Risk := Risk.ofOutcomes s.outcomes s.acknowledged

/-- What the draft's gas costs, once everything it depends on is known. -/
def feeCost (s : Session) : Option FeeCost := do
  let snapshot ← s.snapshot
  let level ← s.feeLevel
  let limit ← s.gasLimit
  return snapshot.feeCost level limit

def enabledOutcomes (s : Session) : List Outcome := s.outcomes.filter (·.enabled)

/-! ### Deriving the plan and the checks -/

/-- The session with the plan and the checks derived anew. Without a snapshot and a fee level there
are none; a nonce that was known before stays. -/
def refresh (s : Session) : Session :=
  match s.snapshot, s.feeLevel with
  | some snapshot, some level =>
    let plan := (s.draft.planRequest s.account snapshot level).plan s.policy
    let limit := s.gasLimitOverride.getD plan.limit
    let checks := (s.draft.checkRequest s.account snapshot level plan limit).run s.policy
    { s with
      nonce := some (SignedNonce.resolve s.draft s.account snapshot).signed
      plan := some plan
      checks := checks
      tally := s.tally.record checks }
  | _, _ => { s with plan := none, checks := [] }

theorem refresh_of_loaded {s : Session} {snapshot : Snapshot} {level : FeeLevel}
    (hs : s.snapshot = some snapshot) (hl : s.feeLevel = some level) :
    s.refresh =
      let plan := (s.draft.planRequest s.account snapshot level).plan s.policy
      let limit := s.gasLimitOverride.getD plan.limit
      let checks := (s.draft.checkRequest s.account snapshot level plan limit).run s.policy
      { s with
        nonce := some (SignedNonce.resolve s.draft s.account snapshot).signed
        plan := some plan
        checks := checks
        tally := s.tally.record checks } := by
  simp only [refresh, hs, hl]

theorem refresh_of_not_loaded {s : Session} (h : s.snapshot = none ∨ s.feeLevel = none) :
    s.refresh = { s with plan := none, checks := [] } := by
  unfold refresh
  split
  · simp_all
  · rfl

/-- Deriving anew changes the nonce, the plan, the checks and their tally at most. -/
theorem refresh_eq (s : Session) :
    s.refresh = { s with
      nonce := s.refresh.nonce
      plan := s.refresh.plan
      checks := s.refresh.checks
      tally := s.refresh.tally } := by
  unfold refresh
  split <;> rfl

/-! ### Requests -/

/-- Takes in a new draft and drops what was derived for the old one. -/
def replaceDraft (s : Session) (draft : Draft) : Session := start draft s.account s.policy

/-- Drops the acknowledgements once the draft is signed or rejected. -/
def finalize (s : Session) : Session := { s with acknowledged := .empty }

/-- Goes on only with a result for the current draft. -/
def ifCurrent (s : Session) (fingerprint : Fingerprint) (next : Session) :
    Except SessionError Session :=
  if fingerprint = s.fingerprint then .ok next else .error (.stale s.fingerprint fingerprint)

/-- Evaluates a catalog on facts that were gathered for the draft with the given fingerprint. -/
def applyRules (s : Session) (fingerprint : Fingerprint) (catalog : RuleCatalog) (facts : Facts) :
    Except SessionError Session :=
  s.ifCurrent fingerprint
    { s with outcomes := catalog.evaluate facts, catalog := some catalog, facts := facts }

/-- Takes in the state of the chain and starts on a fee level. -/
def applySnapshot (s : Session) (snapshot : Snapshot) (last : Option LastChoice) :
    Except SessionError Session :=
  s.ifCurrent snapshot.fingerprint
    { s with
      feeLevel := FeeLevel.start? snapshot.feeLevels last s.draft.prefersCustomFee
      snapshot := some snapshot }.refresh

/-- Acknowledges the outcome of one enabled rule, and tells whether it was not acknowledged
before. -/
def acknowledge (s : Session) (id : String) (confirmed : Bool) :
    Except SessionError (Bool × Session) :=
  match s.acknowledged.acknowledge s.enabledOutcomes id confirmed with
  | .error e => .error (.acknowledge e)
  | .ok (added, acknowledged) => .ok (added, { s with acknowledged })

/-- Acknowledges every warning and danger of an enabled rule, and lists the new ones. -/
def acknowledgeAll (s : Session) : List String × Session :=
  let (added, acknowledged) := s.acknowledged.acknowledgeAll s.enabledOutcomes
  (added, { s with acknowledged })

/-- Takes an acknowledgement back, and tells whether there was one. -/
def undo (s : Session) (id : String) : Bool × Session :=
  let (found, acknowledged) := s.acknowledged.undo id
  (found, { s with acknowledged })

/-- Switches one rule on or off for the draft. An acknowledgement of the rule is dropped. -/
def setRuleEnabled (s : Session) (id : String) (enabled : Bool) : Except SessionError Session :=
  match s.catalog with
  | none => .error .rulesNotLoaded
  | some catalog =>
    match catalog.withEnabled? id enabled with
    | none => .error (.unknownRule id)
    | some updated =>
      .ok { s with
        acknowledged := s.acknowledged.erase id
        outcomes := updated.evaluate s.facts
        catalog := some updated }

def selectFee (s : Session) (level : FeeLevel) : Session :=
  { s with feeLevel := some level }.refresh

def setGasLimit (s : Session) (limit : UInt64) : Session :=
  { s with gasLimitOverride := some limit }.refresh

def setNonce (s : Session) (nonce : UInt64) : Session :=
  { s with draft := s.draft.withNonce nonce }.refresh

/-! ### The verdict -/

/-- The state of the chain is loaded; for a multisig account its nonces belong to it. -/
def chainReady (s : Session) : Bool :=
  s.snapshot.any fun snapshot => !s.account.isMultisig || snapshot.safe.isSome

def verdictRequest (s : Session) : VerdictRequest where
  riskBlocks := s.risk.blocksSubmit
  checks := s.checks
  ready := s.catalog.isSome && s.chainReady
  feeSelected := s.feeLevel.isSome
  canSign := s.account.canSign

def verdict (s : Session) : Verdict := s.verdictRequest.decide

theorem ifCurrent_eq_error_iff {s next : Session} {f : Fingerprint} {e : SessionError} :
    s.ifCurrent f next = .error e ↔ f ≠ s.fingerprint ∧ e = .stale s.fingerprint f := by
  unfold ifCurrent
  split <;> simp_all [eq_comm]

end Session

end Countersign
