import Countersign.Check

/-! Whether a draft may be signed. Nothing that is acknowledged lifts a forbidden check. -/

namespace Countersign

/-- What stands in the way of signing. -/
inductive BlockingReason where
  /-- Not everything is loaded. -/
  | notReady
  | noFeeLevel
  | forbiddenCheck (code : CheckCode)
  | cannotSign
  | unresolvedRisk
deriving DecidableEq

def BlockingReason.text : BlockingReason → String
  | notReady => "NotReady"
  | noFeeLevel => "GasPriceUnavailable"
  | forbiddenCheck _ => "ForbiddenCheck"
  | cannotSign => "AccountCannotSign"
  | unresolvedRisk => "UnresolvedRisk"

structure VerdictRequest where
  riskBlocks : Bool
  checks : List Check
  /-- The rules and the state of the chain are loaded. -/
  ready : Bool
  feeSelected : Bool
  /-- An account that is only watched cannot sign. -/
  canSign : Bool

structure Verdict where
  blockedBy : Option BlockingReason
  /-- The balance is short; a top-up is offered in place of signing. -/
  balanceShort : Bool
deriving DecidableEq

def Verdict.canSubmit (v : Verdict) : Bool := v.blockedBy.isNone

namespace VerdictRequest

/-- The first reason that stands in the way, in the order in which reasons are reported. -/
def blockedBy? (r : VerdictRequest) : Option BlockingReason :=
  if !r.ready then some .notReady
  else if !r.feeSelected then some .noFeeLevel
  else match r.checks.find? (·.isForbidden) with
    | some check => some (.forbiddenCheck check.code)
    | none =>
      if !r.canSign then some .cannotSign
      else if r.riskBlocks then some .unresolvedRisk
      else none

def decide (r : VerdictRequest) : Verdict :=
  ⟨r.blockedBy?, r.checks.any fun c => c.code = .balanceShort⟩

/-- Signing is allowed exactly if no reason stands in the way. -/
theorem canSubmit_decide {r : VerdictRequest} :
    r.decide.canSubmit = true ↔ r.ready = true ∧ r.feeSelected = true ∧
      (∀ c ∈ r.checks, c.isForbidden = false) ∧ r.canSign = true ∧ r.riskBlocks = false := by
  have hcheck : r.checks.find? (·.isForbidden) = none ↔ ∀ c ∈ r.checks, c.isForbidden = false := by
    simp
  simp only [decide, Verdict.canSubmit, blockedBy?, ← hcheck]
  cases r.ready <;> cases r.feeSelected <;> cases r.canSign <;> cases r.riskBlocks <;>
    cases r.checks.find? (·.isForbidden) <;> simp

end VerdictRequest

structure VerdictTally where
  allowed : UInt64
  blocked : UInt64
deriving DecidableEq

namespace VerdictTally

def zero : VerdictTally := ⟨0, 0⟩

def record (t : VerdictTally) (v : Verdict) : VerdictTally :=
  if v.canSubmit then { t with allowed := t.allowed + 1 } else { t with blocked := t.blocked + 1 }

end VerdictTally

end Countersign
