import Countersign.Proofs.Risk.Order
import Countersign.Proofs.Session.Danger

/-! Acknowledging everything at once. Afterwards only what is forbidden has to be dealt with, a
second time acknowledges nothing, and taking back what is listed leads back to where it began. -/

namespace Countersign.Session

/-- The rules of the enabled warnings and dangers that are not acknowledged. -/
def openIds (s : Session) : List String :=
  (s.outcomes.filter fun o => o.enabled && (o.severity = .warning || o.severity = .danger) &&
    !s.acknowledged.contains o.ruleId).map (·.ruleId)

/-- The rules of the enabled forbidden outcomes. -/
def forbiddenIds (s : Session) : List String :=
  (s.outcomes.filter fun o => o.enabled && o.severity = .forbidden).map (·.ruleId)

variable {s : Session} {id : String}

theorem mem_openIds : id ∈ s.openIds ↔ ∃ o ∈ s.outcomes, o.ruleId = id ∧ o.enabled = true ∧
    Acknowledged.takesAll o = true ∧ s.acknowledged.contains id = false := by
  simp only [openIds, List.mem_map, List.mem_filter, Bool.and_eq_true, Bool.not_eq_true']
  constructor
  · rintro ⟨o, ⟨ho, ⟨hen, htaken⟩, hopen⟩, rfl⟩
    exact ⟨o, ho, rfl, hen, htaken, hopen⟩
  · rintro ⟨o, ho, rfl, hen, htaken, hopen⟩
    exact ⟨o, ⟨ho, ⟨hen, htaken⟩, hopen⟩, rfl⟩

theorem Fresh.nodup_map_filter (h : Fresh s) (p : Outcome → Bool) :
    ((s.outcomes.filter p).map (·.ruleId)).Nodup :=
  (List.filter_sublist.map _).nodup h.distinct_outcomes

theorem Fresh.acknowledgeAll_fst (h : Fresh s) : s.acknowledgeAll.1 = s.openIds := by
  calc s.acknowledgeAll.1
    _ = (s.acknowledged.acknowledgeAll s.enabledOutcomes).1 := rfl
    _ = _ := Acknowledged.acknowledgeAll_fst (h.nodup_map_filter _)
    _ = s.openIds := by
      rw [enabledOutcomes, List.filter_filter, openIds]
      refine congrArg (List.map _) (List.filter_congr fun o _ => ?_)
      rw [Acknowledged.takesAll, Bool.and_comm, Bool.and_assoc]

/-- Exactly the rules that were open are acknowledged in addition. -/
theorem contains_acknowledgeAll : s.acknowledgeAll.2.acknowledged.contains id = true ↔
    id ∈ s.openIds ∨ s.acknowledged.contains id = true := by
  have htaken : s.acknowledgeAll.2.acknowledged.contains id = true ↔
      s.acknowledged.contains id = true ∨
        ∃ o ∈ s.enabledOutcomes, Acknowledged.takesAll o = true ∧ o.ruleId = id :=
    Acknowledged.contains_acknowledgeAll
  rw [htaken, or_comm, mem_openIds]
  cases hc : s.acknowledged.contains id with
  | true => simp
  | false => simp [enabledOutcomes, and_assoc, and_left_comm, and_comm]

theorem contains_of_mem_outcomes {o : Outcome} (ho : o ∈ s.outcomes) (hen : o.enabled = true)
    (hsev : o.severity = .warning ∨ o.severity = .danger) :
    s.acknowledgeAll.2.acknowledged.contains o.ruleId = true :=
  Acknowledged.contains_acknowledgeAll.2
    (.inr ⟨o, List.mem_filter.2 ⟨ho, hen⟩, by simpa [Acknowledged.takesAll] using hsev, rfl⟩)

theorem acknowledgeAll_acknowledgeAll :
    s.acknowledgeAll.2.perform .acknowledgeAll = (.ids [], s.acknowledgeAll.2) := by
  have hnone : s.acknowledgeAll.2.acknowledged.acknowledgeAll s.enabledOutcomes =
      ([], s.acknowledgeAll.2.acknowledged) :=
    Acknowledged.acknowledgeAll_of_forall fun o ho htaken =>
      Acknowledged.contains_acknowledgeAll.2 (.inr ⟨o, ho, htaken, rfl⟩)
  exact congrArg (fun r => (Reply.ids r.1, { s with acknowledged := r.2 })) hnone

/-- Taking acknowledgements back changes nothing but the acknowledgements. -/
theorem runAll_undo (s : Session) (ids : List String) :
    s.runAll (ids.map .undo) =
      { s with acknowledged := ids.foldl Table.erase s.acknowledged } := by
  induction ids generalizing s with
  | nil => rfl
  | cons id ids ih => exact ih { s with acknowledged := s.acknowledged.erase id }

/-- Taking back all that was open, in whatever order, leaves what was acknowledged before. -/
theorem runAll_undo_acknowledgeAll {ids : List String} (h : ids.Perm s.openIds) :
    s.acknowledgeAll.2.runAll (ids.map .undo) = s := by
  have hold : ids.foldl Table.erase s.acknowledgeAll.2.acknowledged = s.acknowledged := by
    refine NameSet.eq_of_contains fun id => ?_
    rw [NameSet.contains_foldl_erase, contains_acknowledgeAll, h.mem_iff]
    constructor
    · rintro ⟨hnew, hopen | hid⟩
      · exact absurd hopen hnew
      · exact hid
    · intro hid
      refine ⟨fun hopen => ?_, .inr hid⟩
      obtain ⟨-, -, -, -, -, hnot⟩ := mem_openIds.1 hopen
      rw [hid] at hnot
      cases hnot
  rw [runAll_undo, hold]
  rfl

/-- After every run, acknowledging everything lists each open warning and danger once, in the order
of the outcomes, and acknowledges just these. What is forbidden remains, and alone blocks signing.
A second time acknowledges nothing, and taking back what is listed leads back to the session
before. -/
theorem acknowledgeAll_runAll (draft : Draft) (account : Account) (policy : GasPolicy)
    (commands : List Command) :
    let s := (start draft account policy).runAll commands
    let s' := (s.perform .acknowledgeAll).2
    ((s.perform .acknowledgeAll).1 = .ids s.openIds ∧ s.openIds.Nodup) ∧
      (∀ id, s'.acknowledged.contains id = true ↔
        id ∈ s.openIds ∨ s.acknowledged.contains id = true) ∧
      s'.risk.needsProcessing = s.forbiddenIds ∧
      (s'.risk.blocksSubmit = true ↔
        ∃ o ∈ s.outcomes, o.enabled = true ∧ o.severity = .forbidden) ∧
      s'.perform .acknowledgeAll = (.ids [], s') ∧
      ∀ ids : List String, ids.Perm s.openIds → s'.runAll (ids.map .undo) = s := by
  intro s s'
  have hfresh : Fresh s := fresh_runAll draft account policy commands
  obtain ⟨hneeds, hblocks⟩ := Risk.ofOutcomes_of_acknowledged fun o ho hen hsev =>
    contains_of_mem_outcomes (s := s) ho hen hsev
  refine ⟨⟨?_, hfresh.nodup_map_filter _⟩, fun id => contains_acknowledgeAll, hneeds, hblocks,
    acknowledgeAll_acknowledgeAll, fun ids h => runAll_undo_acknowledgeAll h⟩
  rw [perform, hfresh.acknowledgeAll_fst]

/-- The request that evaluates two rules on a fact that is a danger to both. -/
def applyDangers : Command :=
  .applyRules sampleDraft.fingerprint
    ⟨[sampleRule, { sampleRule with id := "route" }], by decide⟩
    (Table.ofList [("spender", .bool true)])

/-- Two dangers are acknowledged with everything, and taken back, the last one first. -/
theorem acknowledgeAll_runAll_dangers :
    let s := sample.runAll [applyDangers]
    let s' := (s.perform .acknowledgeAll).2
    s.openIds = ["spender", "route"] ∧ s'.risk.needsProcessing = [] ∧
      s'.runAll (["route", "spender"].map .undo) = s := by
  intro s s'
  have hopen : s.openIds = ["spender", "route"] := by decide +kernel
  have hforbidden : s.forbiddenIds = [] := by decide +kernel
  have hswap : ["route", "spender"].Perm s.openIds := by
    rw [hopen]
    exact .swap "spender" "route" []
  obtain ⟨-, -, hneeds, -, -, hundo⟩ :=
    acknowledgeAll_runAll sampleDraft ⟨true, false⟩ .standard [applyDangers]
  exact ⟨hopen, hneeds.trans hforbidden, hundo ["route", "spender"] hswap⟩

end Countersign.Session
