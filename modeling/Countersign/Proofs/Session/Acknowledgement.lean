import Countersign.Proofs.Session.History

/-! What the history of a run says about acknowledgements. A rule is acknowledged after a run if
some request has acknowledged it and none has released it since. -/

namespace Countersign.Session

namespace Event

/-- The request takes back every acknowledgement of the rule. -/
def releases (t : Event) (id : String) : Bool :=
  match t.command with
  | .replaceDraft _ | .finalize => true
  | .undo other => other = id
  | .setRuleEnabled other _ => other = id && t.accepted
  | _ => false

/-- The request acknowledges the rule, whether or not it was acknowledged before. -/
def acknowledges (t : Event) (id : String) : Bool :=
  match t.command with
  | .acknowledge other _ => other = id && t.accepted
  | .acknowledgeAll =>
    t.before.enabledOutcomes.any fun o => Acknowledged.takesAll o && o.ruleId = id
  | _ => false

variable {s s' : Session} {c : Command} {id : String}

/-- A request that is refused leaves acknowledgements alone. -/
theorem eq_false_of_refused (hr : accepted ⟨s, c⟩ = false) (id : String) :
    acknowledges ⟨s, c⟩ id = false ∧ releases ⟨s, c⟩ id = false := by
  cases c with
  | acknowledge | setRuleEnabled => simp [acknowledges, releases, hr]
  | applyRules | applySnapshot => exact ⟨rfl, rfl⟩
  | _ => cases hr

theorem contains_acknowledged_of_takes (ha : accepted ⟨s, c⟩ = true) (h : s.Takes c s')
    (id : String) : s'.acknowledged.contains id = true ↔
      acknowledges ⟨s, c⟩ id = true ∨
        releases ⟨s, c⟩ id = false ∧ s.acknowledged.contains id = true := by
  cases h with
  | replaceDraft | finalize => simp [acknowledges, releases, start, Table.contains, Table.empty]
  | applyRules => simp [acknowledges, releases]
  | acknowledge => simp [acknowledges, releases, ha, NameSet.contains_add]
  | acknowledgeAll =>
    simp [acknowledges, releases, Acknowledged.contains_acknowledgeAll, or_comm]
  | undo other | setRuleEnabled =>
    simp [acknowledges, releases, ha, NameSet.contains_erase]
  | applySnapshot | selectFee | setGasLimit | setNonce =>
    rw [refresh_eq]
    simp [acknowledges, releases]

end Event

namespace History

/-- The requests since all acknowledgements of the rule were taken back. -/
def sinceRelease (h : History) (id : String) : History := h.takeWhile fun t => !t.releases id

/-- Some request has acknowledged the rule, and none has released it since. -/
def Acknowledges (h : History) (id : String) : Prop :=
  ∃ t ∈ h.sinceRelease id, t.acknowledges id = true

theorem acknowledges_cons {t : Event} {h : History} {id : String} :
    Acknowledges (t :: h) id ↔
      t.releases id = false ∧ (t.acknowledges id = true ∨ h.Acknowledges id) := by
  cases hr : t.releases id <;> simp [Acknowledges, sinceRelease, hr]

end History

/-- After every run the acknowledged rules are those that its history says are acknowledged. -/
theorem contains_acknowledged_runAll (draft : Draft) (account : Account) (policy : GasPolicy)
    (commands : List Command) (id : String) :
    ((start draft account policy).runAll commands).acknowledged.contains id = true ↔
      ((start draft account policy).history commands).Acknowledges id := by
  refine run_induction (motive := fun past s =>
    s.acknowledged.contains id = true ↔ History.Acknowledges past id) ?_ ?_ ?_ commands
  · simp [start, Table.contains, Table.empty, History.Acknowledges, History.sinceRelease]
  · intro past s c hr ih
    obtain ⟨hack, hrel⟩ := Event.eq_false_of_refused hr id
    rw [History.acknowledges_cons, hack, hrel, ih]
    simp
  · intro past s c s' ha ht ih
    rw [Event.contains_acknowledged_of_takes ha ht id, History.acknowledges_cons, ih]
    cases hrel : Event.releases ⟨s, c⟩ id with
    | false => simp
    | true =>
      -- No request both acknowledges and releases.
      have hack : Event.acknowledges ⟨s, c⟩ id = false := by
        cases c <;> simp_all [Event.acknowledges, Event.releases]
      simp [hack]

end Countersign.Session
