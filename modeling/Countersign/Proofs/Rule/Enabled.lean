import Countersign.Rule.Outcome
import Mathlib.Data.List.Basic
import Mathlib.Data.List.Nodup

/-! Rules that are switched on and off. A catalog with one rule switched differs from the catalog
before in that rule alone, and its outcomes differ in whether the one of that rule is enabled. -/

namespace Countersign

/-- The outcome, enabled or not as the rule `id` is, if it is of that rule. -/
def Outcome.switch (id : String) (enabled : Bool) (o : Outcome) : Outcome :=
  if o.ruleId = id then { o with enabled } else o

theorem Outcome.switch_of_ne {id : String} {o : Outcome} (h : o.ruleId ≠ id) (enabled : Bool) :
    o.switch id enabled = o := if_neg h

@[simp] theorem Outcome.ruleId_switch (id : String) (enabled : Bool) (o : Outcome) :
    (o.switch id enabled).ruleId = o.ruleId := by
  unfold switch
  split <;> rfl

theorem Rule.evaluate?_switch (r : Rule) (id : String) (enabled : Bool) (facts : Facts) :
    (if r.id = id then r.withEnabled enabled else r).evaluate? facts =
      (r.evaluate? facts).map (Outcome.switch id enabled) := by
  have hid : ∀ o, r.evaluate? facts = some o → o.ruleId = r.id := fun o ho =>
    (ruleId_of_evaluate? ho).1
  by_cases h : r.id = id
  · rw [if_pos h, evaluate?_withEnabled]
    cases ho : r.evaluate? facts with
    | none => rfl
    | some o => simp [Outcome.switch, hid o ho, h]
  · rw [if_neg h]
    cases ho : r.evaluate? facts with
    | none => rfl
    | some o => simp [Outcome.switch, hid o ho, h]

namespace RuleCatalog

variable {c d : RuleCatalog} {id : String} {enabled : Bool} {facts : Facts}

theorem withEnabled?_eq_some_iff : c.withEnabled? id enabled = some d ↔
    (∃ r ∈ c.rules, r.id = id) ∧
      d.rules = c.rules.map fun r => if r.id = id then r.withEnabled enabled else r := by
  -- The rule that is replaced is the only one of its id.
  have hreplace : ∀ rule ∈ c.rules, (c.replace (rule.withEnabled enabled)).rules =
      c.rules.map fun r => if r.id = rule.id then r.withEnabled enabled else r := by
    intro rule hrule
    refine List.map_congr_left fun r hr => ?_
    by_cases hid : r.id = rule.id
    · rw [Rule.id_withEnabled, if_pos hid, if_pos hid,
        List.inj_on_of_nodup_map c.distinct hr hrule hid]
    · rw [Rule.id_withEnabled, if_neg hid, if_neg hid]
  constructor
  · intro h
    obtain ⟨rule, hget, rfl⟩ := Option.map_eq_some_iff.1 h
    have hrule : rule ∈ c.rules := List.mem_of_find?_eq_some hget
    obtain rfl : rule.id = id := by simpa using List.find?_some hget
    exact ⟨⟨rule, hrule, rfl⟩, hreplace rule hrule⟩
  · rintro ⟨⟨r, hr, hid⟩, hd⟩
    obtain ⟨rule, hget⟩ : ∃ rule, c.get? id = some rule :=
      Option.isSome_iff_exists.1 (List.find?_isSome.2 ⟨r, hr, by simpa using hid⟩)
    have hrule : rule ∈ c.rules := List.mem_of_find?_eq_some hget
    obtain rfl : rule.id = id := by simpa using List.find?_some hget
    exact Option.map_eq_some_iff.2 ⟨rule, hget, ext ((hreplace rule hrule).trans hd.symm)⟩

/-- The outcomes are those from before, in their places, but for the flag of the rule's own. -/
theorem evaluate_of_withEnabled? (h : c.withEnabled? id enabled = some d) (facts : Facts) :
    d.evaluate facts = (c.evaluate facts).map (Outcome.switch id enabled) := by
  rw [evaluate, (withEnabled?_eq_some_iff.1 h).2, List.filterMap_map, evaluate, List.map_filterMap]
  exact List.filterMap_congr fun r _ => r.evaluate?_switch id enabled facts

theorem mem_evaluate_of_withEnabled? (h : c.withEnabled? id enabled = some d) {o : Outcome}
    (ho : o.ruleId ≠ id) : o ∈ d.evaluate facts ↔ o ∈ c.evaluate facts := by
  rw [evaluate_of_withEnabled? h, List.mem_map]
  constructor
  · rintro ⟨p, hp, rfl⟩
    rw [Outcome.ruleId_switch] at ho
    rwa [Outcome.switch_of_ne ho]
  · exact fun hmem => ⟨o, hmem, Outcome.switch_of_ne ho enabled⟩

/-- Whatever rules are switched, the outcomes are the same but for their flags. -/
theorem map_enabled_evaluate (c : RuleCatalog) (facts : Facts) (enabled : Bool) :
    (c.evaluate facts).map (fun o => { o with enabled }) =
      (c.rules.map (·.withEnabled enabled)).filterMap (·.evaluate? facts) := by
  rw [evaluate, List.map_filterMap, List.filterMap_map]
  exact List.filterMap_congr fun r _ => (r.evaluate?_withEnabled enabled facts).symm

end RuleCatalog

end Countersign
