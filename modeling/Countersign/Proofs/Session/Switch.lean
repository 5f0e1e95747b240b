import Countersign.Proofs.Rule.Enabled
import Countersign.Proofs.Session.Fresh

/-! Rules that are switched on or off in a session. All rules are evaluated anew, but only on facts
that they were evaluated on before, so no outcome changes but for the flag of the one rule. -/

namespace Countersign.Session

/-- `s.Switches id enabled s'`: the sessions differ in whether the rule `id` is enabled, and in that
`s'` has no acknowledgement of the rule. -/
structure Switches (s : Session) (id : String) (enabled : Bool) (s' : Session) : Prop where
  catalog : ∃ before after, s.catalog = some before ∧ s'.catalog = some after ∧
    (∃ r ∈ before.rules, r.id = id) ∧
    after.rules = before.rules.map fun r => if r.id = id then r.withEnabled enabled else r
  outcomes : s'.outcomes = s.outcomes.map (Outcome.switch id enabled)
  acknowledged : ∀ other, s'.acknowledged.contains other = true ↔
    other ≠ id ∧ s.acknowledged.contains other = true
  /-- The draft, the facts and all that belongs to the gas are the same. -/
  others : s' = { s with
    catalog := s'.catalog
    outcomes := s'.outcomes
    acknowledged := s'.acknowledged }

variable {s s' : Session} {id : String} {enabled : Bool}

theorem Fresh.switches_of_takes (h : Fresh s) (ht : s.Takes (.setRuleEnabled id enabled) s') :
    s.Switches id enabled s' := by
  cases ht with
  | setRuleEnabled loaded known =>
    obtain ⟨hrule, hrules⟩ := RuleCatalog.withEnabled?_eq_some_iff.1 known
    refine ⟨⟨_, _, loaded, rfl, hrule, hrules⟩, ?_, fun other => ?_, rfl⟩
    · rw [h.outcomes, loaded]
      exact RuleCatalog.evaluate_of_withEnabled? known s.facts
    · rw [NameSet.contains_erase, ne_comm]

theorem Fresh.perform_of_switches (h : Fresh s) (hs : s.Switches id enabled s') :
    s.perform (.setRuleEnabled id enabled) = (.done, s') := by
  obtain ⟨before, after, hbefore, hafter, hrule, hrules⟩ := hs.catalog
  have known := RuleCatalog.withEnabled?_eq_some_iff.2 ⟨hrule, hrules⟩
  have houtcomes : s'.outcomes = after.evaluate s.facts := by
    rw [hs.outcomes, h.outcomes, hbefore]
    exact (RuleCatalog.evaluate_of_withEnabled? known s.facts).symm
  have hacknowledged : s'.acknowledged = s.acknowledged.erase id :=
    NameSet.eq_of_contains fun other => by
      rw [hs.acknowledged, NameSet.contains_erase, ne_comm]
  rw [hs.others, hafter, houtcomes, hacknowledged]
  simp only [perform, setRuleEnabled, hbefore, known, settle]

/-- After every run, a rule is switched on or off exactly if the catalog has it. The outcomes stay
in their places and change in the flag of that rule only, its acknowledgement is dropped, and
nothing else changes. -/
theorem setRuleEnabled_runAll (draft : Draft) (account : Account) (policy : GasPolicy)
    (commands : List Command) (id : String) (enabled : Bool) (s' : Session) :
    let s := (start draft account policy).runAll commands
    s.perform (.setRuleEnabled id enabled) = (.done, s') ↔ s.Switches id enabled s' := by
  intro s
  have hfresh : Fresh s := fresh_runAll draft account policy commands
  refine ⟨fun h => ?_, hfresh.perform_of_switches⟩
  rcases perform_cases s (.setRuleEnabled id enabled) with ⟨hrefused, -⟩ | ⟨-, ht⟩
  · rw [h] at hrefused
    cases hrefused
  · rw [h] at ht
    exact hfresh.switches_of_takes ht

end Countersign.Session
