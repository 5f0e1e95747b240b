import Countersign.Rule.Outcome

/-! The rules whose outcomes the signer has acknowledged for the current draft. A forbidden outcome
cannot be acknowledged, and a danger only with an explicit confirmation. -/

namespace Countersign

inductive AcknowledgeError where
  | forbidden (rule : String)
  | dangerNotConfirmed (rule : String)
  /-- The rule has no outcome for the current draft. -/
  | unknownRule (rule : String)
deriving DecidableEq

def AcknowledgeError.message : AcknowledgeError → String
  | forbidden rule => s!"rule {rule} has Forbidden severity and cannot be acknowledged"
  | dangerNotConfirmed rule => s!"rule {rule} has Danger severity and needs explicit confirmation"
  | unknownRule rule => s!"rule {rule} has no outcome for the current draft"

abbrev Acknowledged := NameSet

namespace Acknowledged

/-- Why the rule `id` cannot be acknowledged, if it cannot. -/
def refusal? (outcomes : List Outcome) (id : String) (confirmed : Bool) : Option AcknowledgeError :=
  match outcomes.find? fun o => o.ruleId = id with
  | none => some (.unknownRule id)
  | some o =>
    match o.severity with
    | .forbidden => some (.forbidden id)
    | .danger => if confirmed then none else some (.dangerNotConfirmed id)
    | _ => none

/-- Acknowledges one rule, and tells whether it was not acknowledged before. -/
def acknowledge (a : Acknowledged) (outcomes : List Outcome) (id : String) (confirmed : Bool) :
    Except AcknowledgeError (Bool × Acknowledged) :=
  match refusal? outcomes id confirmed with
  | some e => .error e
  | none => .ok (!a.contains id, NameSet.add a id)

/-- The outcomes that are acknowledged all at once. -/
def takesAll (o : Outcome) : Bool := o.severity = .warning || o.severity = .danger

/-- Acknowledges every warning and danger, and lists the rules that were not acknowledged before. -/
def acknowledgeAll (a : Acknowledged) : List Outcome → List String × Acknowledged
  | [] => ([], a)
  | o :: os =>
    if takesAll o && !a.contains o.ruleId then
      let (added, a') := acknowledgeAll (NameSet.add a o.ruleId) os
      (o.ruleId :: added, a')
    else acknowledgeAll a os

/-- Takes an acknowledgement back, and tells whether there was one. -/
def undo (a : Acknowledged) (id : String) : Bool × Acknowledged := (a.contains id, a.erase id)

/-- Where a rule finds nothing but a danger, it is acknowledged only with a confirmation. -/
theorem confirmed_of_refusal? {outcomes : List Outcome} {id : String} {confirmed : Bool}
    (h : refusal? outcomes id confirmed = none)
    (hd : ∀ o ∈ outcomes, o.ruleId = id → o.severity = .danger) : confirmed = true := by
  unfold refusal? at h
  split at h
  · cases h
  · next o ho =>
    rw [hd o (List.mem_of_find?_eq_some ho) (by simpa using List.find?_some ho)] at h
    simpa using h

/-- After acknowledging all, the rules acknowledged are those from before and those of every warning
and danger. -/
theorem contains_acknowledgeAll {a : Acknowledged} {outcomes : List Outcome} {id : String} :
    (a.acknowledgeAll outcomes).2.contains id = true ↔
      a.contains id = true ∨ ∃ o ∈ outcomes, takesAll o = true ∧ o.ruleId = id := by
  induction outcomes generalizing a with
  | nil => simp [acknowledgeAll]
  | cons o os ih =>
    simp only [acknowledgeAll, List.mem_cons, or_and_right, exists_or, exists_eq_left]
    split
    · next h =>
      obtain ⟨ht, -⟩ := Bool.and_eq_true_iff.1 h
      rw [ih, NameSet.contains_add]
      simp only [ht, true_and, or_assoc]
      exact or_left_comm
    · next h =>
      rw [ih]
      -- A warning or danger that is passed over is acknowledged already.
      have hold : takesAll o = true ∧ o.ruleId = id → a.contains id = true := by
        rintro ⟨ht, rfl⟩
        simpa [ht] using h
      exact ⟨Or.imp_right .inr, fun h' => h'.elim .inl fun h' => h'.imp_left hold⟩

/-- Where no rule has two outcomes, the new ones are those of the warnings and dangers that were not
acknowledged before. -/
theorem acknowledgeAll_fst {a : Acknowledged} {outcomes : List Outcome}
    (h : (outcomes.map (·.ruleId)).Nodup) :
    (a.acknowledgeAll outcomes).1 =
      (outcomes.filter fun o => takesAll o && !a.contains o.ruleId).map (·.ruleId) := by
  induction outcomes generalizing a with
  | nil => rfl
  | cons o os ih =>
    rw [List.map_cons, List.nodup_cons] at h
    rw [acknowledgeAll, List.filter_cons]
    split
    · -- The outcomes behind are of other rules than the one that is added.
      have hrest : os.filter (fun p => takesAll p && !(NameSet.add a o.ruleId).contains p.ruleId) =
          os.filter fun p => takesAll p && !a.contains p.ruleId := by
        refine List.filter_congr fun p hp => ?_
        have hne : o.ruleId ≠ p.ruleId := fun heq => h.1 (heq ▸ List.mem_map_of_mem hp)
        have hcontains : (NameSet.add a o.ruleId).contains p.ruleId = a.contains p.ruleId := by
          rw [Bool.eq_iff_iff, NameSet.contains_add]
          exact or_iff_right hne
        rw [hcontains]
      rw [List.map_cons, ← hrest, ← ih h.2]
    · exact ih h.2

/-- Nothing is left to acknowledge once every warning and danger is acknowledged. -/
theorem acknowledgeAll_of_forall {a : Acknowledged} {outcomes : List Outcome}
    (h : ∀ o ∈ outcomes, takesAll o = true → a.contains o.ruleId = true) :
    a.acknowledgeAll outcomes = ([], a) := by
  induction outcomes with
  | nil => rfl
  | cons o os ih =>
    rw [List.forall_mem_cons] at h
    rw [acknowledgeAll, if_neg, ih h.2]
    intro ho
    rw [Bool.and_eq_true, Bool.not_eq_true'] at ho
    rw [h.1 ho.1] at ho
    cases ho.2

end Acknowledged

end Countersign
