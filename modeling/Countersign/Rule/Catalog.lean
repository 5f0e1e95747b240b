import Countersign.Rule.Basic

/-! Catalogs of rules with distinct ids. -/

namespace Countersign

structure RuleCatalog where
  rules : List Rule
  distinct : (rules.map (·.id)).Nodup
deriving DecidableEq

namespace RuleCatalog

theorem ext {c d : RuleCatalog} (h : c.rules = d.rules) : c = d := by
  cases c; cases d; simp_all

/-- The first rule whose id an earlier rule has, given the ids before the list. -/
def firstRepeated? (seen : NameSet) : List Rule → Option Rule
  | [] => none
  | r :: rs => if seen.contains r.id then some r else firstRepeated? (seen.add r.id) rs

theorem distinct_of_firstRepeated? {seen : NameSet} {rules : List Rule}
    (h : firstRepeated? seen rules = none) :
    (rules.map (·.id)).Nodup ∧ ∀ r ∈ rules, seen.contains r.id = false := by
  induction rules generalizing seen with
  | nil => simp
  | cons r rs ih =>
    simp only [firstRepeated?] at h
    split at h
    · cases h
    · next hr =>
      obtain ⟨hrs, hseen⟩ := ih h
      -- No later rule has the id of `r`, which is among the ids before it.
      have hfresh : ∀ s ∈ rs, s.id ≠ r.id ∧ seen.contains s.id = false := by
        intro s hs
        have := hseen s hs
        rw [Bool.eq_false_iff, ne_eq, NameSet.contains_add] at this
        exact ⟨fun he => this (.inl he.symm), by simpa using fun hc => this (.inr hc)⟩
      refine ⟨?_, fun s hs => ?_⟩
      · rw [List.map_cons, List.nodup_cons]
        refine ⟨fun hm => ?_, hrs⟩
        obtain ⟨s, hs, he⟩ := List.mem_map.1 hm
        exact (hfresh s hs).1 he
      · rcases List.mem_cons.1 hs with rfl | hs
        · simpa using hr
        · exact (hfresh s hs).2

def ofRules (rules : List Rule) : Except RuleError RuleCatalog :=
  match h : firstRepeated? .empty rules with
  | some r => .error (.duplicate r.id)
  | none => .ok ⟨rules, (distinct_of_firstRepeated? h).1⟩

theorem firstRepeated?_eq_none {seen : NameSet} {rules : List Rule}
    (hids : (rules.map (·.id)).Nodup) (hseen : ∀ r ∈ rules, seen.contains r.id = false) :
    firstRepeated? seen rules = none := by
  induction rules generalizing seen with
  | nil => rfl
  | cons r rs ih =>
    rw [List.map_cons, List.nodup_cons] at hids
    rw [firstRepeated?, if_neg (by simp [hseen r List.mem_cons_self])]
    refine ih hids.2 fun s hs => ?_
    rw [Bool.eq_false_iff, ne_eq, NameSet.contains_add]
    rintro (hid | hid)
    · exact hids.1 (List.mem_map.2 ⟨s, hs, hid.symm⟩)
    · exact absurd hid (by simp [hseen s (List.mem_cons_of_mem _ hs)])

/-- A list of rules is taken as it is, or refused. -/
theorem ofRules_eq_ok_iff {rules : List Rule} {c : RuleCatalog} :
    ofRules rules = .ok c ↔ c.rules = rules := by
  unfold ofRules
  constructor
  · intro h
    split at h <;> cases h
    rfl
  · rintro rfl
    have hnone : firstRepeated? .empty c.rules = none :=
      firstRepeated?_eq_none c.distinct fun _ _ => rfl
    split
    · next hsome => rw [hnone] at hsome; cases hsome
    · rfl

def get? (c : RuleCatalog) (id : String) : Option Rule := c.rules.find? fun r => r.id = id

theorem ids_replace (rules : List Rule) (rule : Rule) :
    (rules.map fun r => if r.id = rule.id then rule else r).map (·.id) = rules.map (·.id) := by
  rw [List.map_map]
  refine List.map_congr_left fun r _ => ?_
  simp only [Function.comp]
  split
  · next hr => exact hr.symm
  · rfl

/-- The catalog with `rule` in place of the rule that has its id. -/
def replace (c : RuleCatalog) (rule : Rule) : RuleCatalog where
  rules := c.rules.map fun r => if r.id = rule.id then rule else r
  distinct := by rw [ids_replace]; exact c.distinct

theorem mem_rules_replace {c : RuleCatalog} {rule r : Rule} (h : r ∈ (c.replace rule).rules) :
    r = rule ∨ r ∈ c.rules := by
  obtain ⟨s, hs, rfl⟩ := List.mem_map.1 h
  split
  · exact .inl rfl
  · exact .inr hs

/-- The catalog with one rule switched on or off, if it has the rule. -/
def withEnabled? (c : RuleCatalog) (id : String) (enabled : Bool) : Option RuleCatalog :=
  (c.get? id).map fun r => c.replace (r.withEnabled enabled)

/-- The catalog with a threshold of the signer's own for one rule, if it has the rule. -/
def withThreshold? (c : RuleCatalog) (id : String) (severity : Severity) (threshold : Threshold) :
    Option (Except RuleError RuleCatalog) :=
  (c.get? id).map fun r =>
    match r.withThreshold severity threshold with
    | .error e => .error e
    | .ok r' => .ok (c.replace r')

end RuleCatalog

end Countersign
