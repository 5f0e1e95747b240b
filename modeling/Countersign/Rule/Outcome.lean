import Countersign.Rule.Catalog

/-! Evaluating rules on facts. A rule whose fact is missing or does not fit has an unknown outcome.
Otherwise the gravest severity counts whose threshold accepts the fact; where none does, the outcome
is safe if the rule has a threshold for that, and there is none if it has not. -/

namespace Countersign

structure Outcome where
  ruleId : String
  severity : Severity
  enabled : Bool
  /-- The fact that the rule was evaluated on. -/
  value : Option Fact
deriving DecidableEq

/-- The outcome may block signing. -/
def Outcome.isBlockingCandidate (o : Outcome) : Bool := o.enabled && o.severity.needsProcessing

namespace Rule

/-- The severity of a reading, if the rule says anything about it. -/
def severity? (r : Rule) (reading : Reading) : Option Severity :=
  (Severity.evaluationOrder.find? fun s => (r.threshold? s).any (·.accepts reading)).or
    ((r.threshold? .safe).map fun _ => .safe)

def outcome (r : Rule) (severity : Severity) (value : Option Fact) : Outcome :=
  ⟨r.id, severity, r.enabled, value⟩

def evaluate? (r : Rule) (facts : Facts) : Option Outcome :=
  match facts.get? r.factKey with
  | none => some (r.outcome .unknown none)
  | some fact =>
    match r.kind.reading? fact with
    | none => some (r.outcome .unknown (some fact))
    | some reading => (r.severity? reading).map fun s => r.outcome s (some fact)

theorem ruleId_of_evaluate? {r : Rule} {facts : Facts} {o : Outcome}
    (h : r.evaluate? facts = some o) : o.ruleId = r.id ∧ o.enabled = r.enabled := by
  unfold evaluate? at h
  split at h
  · cases h; exact ⟨rfl, rfl⟩
  · split at h
    · cases h; exact ⟨rfl, rfl⟩
    · obtain ⟨s, -, rfl⟩ := Option.map_eq_some_iff.1 h
      exact ⟨rfl, rfl⟩

/-- Switching a rule on or off changes nothing else about its outcome. -/
theorem evaluate?_withEnabled (r : Rule) (enabled : Bool) (facts : Facts) :
    (r.withEnabled enabled).evaluate? facts =
      (r.evaluate? facts).map fun o => { o with enabled } := by
  simp only [evaluate?, withEnabled]
  split
  · rfl
  · split
    · rfl
    · rw [Option.map_map]; rfl

end Rule

/-- The outcomes of all rules, in the order of the catalog. -/
def RuleCatalog.evaluate (c : RuleCatalog) (facts : Facts) : List Outcome :=
  c.rules.filterMap fun r => r.evaluate? facts

/-- A rule has one outcome at most, and the outcomes are in the order of the rules. -/
theorem RuleCatalog.sublist_evaluate (c : RuleCatalog) (facts : Facts) :
    ((c.evaluate facts).map (·.ruleId)).Sublist (c.rules.map (·.id)) := by
  unfold evaluate
  induction c.rules with
  | nil => exact .slnil
  | cons r rs ih =>
    cases ho : r.evaluate? facts with
    | none =>
      simp only [List.filterMap_cons, ho, List.map_cons]
      exact ih.cons _
    | some o =>
      simp only [List.filterMap_cons, ho, List.map_cons, (Rule.ruleId_of_evaluate? ho).1]
      exact ih.cons_cons _

theorem RuleCatalog.distinct_evaluate (c : RuleCatalog) (facts : Facts) :
    ((c.evaluate facts).map (·.ruleId)).Nodup :=
  (c.sublist_evaluate facts).nodup c.distinct

end Countersign
