import Countersign.Gas.Policy
import Countersign.Wei

/-! Checks of a draft as it will be signed: that the gas limit is high enough, that the balance
covers the draft, and that the nonce is not too low. -/

namespace Countersign

inductive CheckCode where
  /-- The balance does not cover the value and the gas. -/
  | balanceShort
  | nonceLow
  /-- The gas limit is below the recommended one. -/
  | gasBelowRecommended
  /-- The gas limit is below the gas expected to be used. -/
  | gasBelowUse
  /-- The gas limit is below the least that may be signed. -/
  | gasBelowMinimum
deriving DecidableEq

inductive CheckLevel where
  | warn
  | danger
  | forbidden
deriving DecidableEq

namespace CheckLevel

def all : List CheckLevel := [warn, danger, forbidden]

def text : CheckLevel → String
  | warn => "warn"
  | danger => "danger"
  | forbidden => "forbidden"

def read? (s : String) : Option CheckLevel := all.find? fun l => l.text = s

end CheckLevel

namespace CheckCode

def all : List CheckCode :=
  [balanceShort, nonceLow, gasBelowRecommended, gasBelowUse, gasBelowMinimum]

def number : CheckCode → Nat
  | balanceShort => 3001
  | nonceLow => 3003
  | gasBelowRecommended => 3004
  | gasBelowUse => 3005
  | gasBelowMinimum => 3006

def ofNumber? (n : Nat) : Option CheckCode := all.find? fun c => c.number = n

def messageKey : CheckCode → String
  | balanceShort => "check.native_token_not_enough"
  | nonceLow => "check.nonce_lower_than_expected"
  | gasBelowRecommended => "check.gas_limit_less_than_expected"
  | gasBelowUse => "check.gas_limit_less_than_gas_used"
  | gasBelowMinimum => "check.gas_limit_not_enough"

/-- The level that a code is reported with. A low nonce has none. -/
def level : CheckCode → Option CheckLevel
  | balanceShort | gasBelowMinimum => some .forbidden
  | gasBelowUse => some .danger
  | gasBelowRecommended => some .warn
  | nonceLow => none

theorem ofNumber?_number (c : CheckCode) : ofNumber? c.number = some c := by cases c <;> decide

end CheckCode

/-- A finding, with the level it is shown with. -/
structure Check where
  code : CheckCode
  level : Option CheckLevel
deriving DecidableEq

namespace Check

def ofCode (code : CheckCode) : Check := ⟨code, code.level⟩

def isForbidden (c : Check) : Bool := c.level = some .forbidden

end Check

/-- What the checks look at, the policy apart. -/
structure CheckRequest where
  recommendedGas : UInt64
  ratio : GasRatio
  recommendedNonce : UInt64
  gasLimit : UInt64
  nonce : UInt64
  maxGasCost : Wei
  sendValue : Wei
  balance : Wei
  /-- The draft takes the place of a submitted transaction. -/
  replaces : Bool
  isMultisig : Bool

namespace CheckRequest

/-- What is found about a gas limit that the protocol allows but that is below the recommended
figure times its ratio. With the standard ratio a limit between the two is a warning and one below
the figure itself a danger; with any other ratio only the figure itself counts. -/
def shortfall? (r : CheckRequest) (policy : GasPolicy) : Option CheckCode :=
  let limit := Word.wide r.gasLimit
  let recommended := Word.wide r.recommendedGas
  if r.gasLimit < GasPolicy.protocolMinimum then none
  else if recommended * r.ratio.wide ≤ limit * 1000 then none
  else if r.ratio ≠ policy.defaultRatio then
    if limit < recommended then some .gasBelowRecommended else none
  else if recommended < limit then some .gasBelowRecommended
  else if limit < recommended then some .gasBelowUse
  else none

/-- What is found about the gas, which the signing account of a multisig does not pay for. -/
def gasCodes (r : CheckRequest) (policy : GasPolicy) : List CheckCode :=
  if r.isMultisig then []
  else
    (if r.gasLimit < policy.minimumGasLimit then [.gasBelowMinimum] else []) ++
    (r.shortfall? policy).toList ++
    (if r.balance < r.maxGasCost + r.sendValue then [.balanceShort] else [])

def nonceCodes (r : CheckRequest) : List CheckCode :=
  if r.nonce < r.recommendedNonce && !r.replaces then [.nonceLow] else []

def run (r : CheckRequest) (policy : GasPolicy) : List Check :=
  (r.gasCodes policy ++ r.nonceCodes).map Check.ofCode

end CheckRequest

/-- How many checks were run and what they found. -/
structure CheckTally where
  runs : UInt64
  fired : UInt64
  forbidden : UInt64
deriving DecidableEq

namespace CheckTally

def zero : CheckTally := ⟨0, 0, 0⟩

def record (t : CheckTally) (checks : List Check) : CheckTally :=
  ⟨t.runs + 1, t.fired + UInt64.ofNat checks.length,
    t.forbidden + UInt64.ofNat (checks.countP (·.isForbidden))⟩

end CheckTally

end Countersign
