import Countersign.Acknowledged

/-! The risk that the outcomes of all rules add up to. Disabled rules take no part. A warning or
danger blocks until it is acknowledged, unless some rule finds the draft safe; a forbidden outcome
always blocks. -/

namespace Countersign

structure Risk where
  /-- The gravest severity. -/
  overall : Option Severity
  /-- The gravest severity that is not dealt with. -/
  unresolved : Option Severity
  /-- The rules that are not dealt with, in the order of their outcomes. -/
  needsProcessing : List String
  blocksSubmit : Bool
  /-- Some rule could not be evaluated. -/
  hasUnknown : Bool
deriving DecidableEq

namespace Risk

/-- The severity with the highest rank, those without a rank apart. -/
def strongest? (severities : List Severity) : Option Severity :=
  Severity.evaluationOrder.find? fun s => severities.contains s

/-- The outcome has still to be dealt with. -/
def isUnresolved (acknowledged : Acknowledged) (o : Outcome) : Bool :=
  o.isBlockingCandidate && (o.severity = .forbidden || !acknowledged.contains o.ruleId)

def ofOutcomes (outcomes : List Outcome) (acknowledged : Acknowledged) : Risk :=
  let enabled := outcomes.filter (·.enabled)
  let unresolved := outcomes.filter (isUnresolved acknowledged)
  let found (s : Severity) := enabled.any fun o => o.severity = s
  { overall := strongest? (enabled.map (·.severity))
    unresolved := strongest? (unresolved.map (·.severity))
    needsProcessing := unresolved.map (·.ruleId)
    blocksSubmit :=
      unresolved.any (fun o => o.severity = .forbidden) || (!unresolved.isEmpty && !found .safe)
    hasUnknown := found .unknown }

variable {outcomes : List Outcome} {acknowledged : Acknowledged}

theorem isUnresolved_iff {o : Outcome} :
    isUnresolved acknowledged o = true ↔ o.enabled = true ∧ o.severity.needsProcessing = true ∧
      (o.severity = .forbidden ∨ acknowledged.contains o.ruleId = false) := by
  simp [isUnresolved, Outcome.isBlockingCandidate, and_assoc]

theorem mem_needsProcessing {id : String} :
    id ∈ (ofOutcomes outcomes acknowledged).needsProcessing ↔
      ∃ o ∈ outcomes, isUnresolved acknowledged o = true ∧ o.ruleId = id := by
  simp [ofOutcomes, and_assoc]

/-- Signing is not blocked exactly if nothing is forbidden and, unless something is safe, every
warning and danger is acknowledged. -/
theorem blocksSubmit_eq_false_iff :
    (ofOutcomes outcomes acknowledged).blocksSubmit = false ↔
      (∀ o ∈ outcomes, o.enabled = true → o.severity ≠ .forbidden) ∧
      ((∃ o ∈ outcomes, o.enabled = true ∧ o.severity = .safe) ∨
        ∀ o ∈ outcomes, o.enabled = true → o.severity = .warning ∨ o.severity = .danger →
          acknowledged.contains o.ruleId = true) := by
  have hforbidden : (∀ o ∈ outcomes.filter (isUnresolved acknowledged), o.severity ≠ .forbidden) ↔
      ∀ o ∈ outcomes, o.enabled = true → o.severity ≠ .forbidden := by
    simp only [List.mem_filter, isUnresolved_iff]
    constructor
    · intro h o ho he hs
      exact h o ⟨ho, he, by rw [hs]; rfl, .inl hs⟩ hs
    · intro h o ho
      exact h o ho.1 ho.2.1
  have hempty : (∀ o ∈ outcomes, o.enabled = true → o.severity ≠ .forbidden) →
      (outcomes.filter (isUnresolved acknowledged) = [] ↔
        ∀ o ∈ outcomes, o.enabled = true → o.severity = .warning ∨ o.severity = .danger →
          acknowledged.contains o.ruleId = true) := by
    intro hf
    simp only [List.filter_eq_nil_iff, isUnresolved_iff, not_and, not_or, Bool.not_eq_false]
    refine forall₃_congr fun o ho he => ?_
    have := hf o ho he
    cases hs : o.severity <;> simp_all [Severity.needsProcessing]
  simp only [ofOutcomes, Bool.or_eq_false_iff, List.any_eq_false, decide_eq_true_eq,
    Bool.and_eq_false_iff, Bool.not_eq_false', List.isEmpty_iff, List.any_eq_true, List.mem_filter,
    and_assoc]
  simp only [← List.mem_filter, hforbidden]
  refine and_congr_right fun hf => ?_
  rw [hempty hf, or_comm]

theorem strongest?_eq_none_iff {severities : List Severity} :
    strongest? severities = none ↔ ∀ s ∈ severities, s = .unknown := by
  simp only [strongest?, List.find?_eq_none, List.contains_eq_mem, decide_eq_true_eq]
  constructor
  · intro h s hs
    cases s with
    | unknown => rfl
    | _ => exact absurd hs (h _ (by decide))
  · intro h s hs hm
    exact Severity.mem_evaluationOrder.1 hs (h s hm)

end Risk

end Countersign
