import Countersign.Proofs.Session.History

/-! What a session derives is never stale. `Fresh` says that the outcomes, the plan, the checks and
the cost are those that follow from what the session holds. It is true of a new session, and every
request that is taken keeps it. -/

namespace Countersign.Session

/-- The plan, the checks and the cost are those that follow from a snapshot and a fee level. -/
structure Planned (s : Session) (snapshot : Snapshot) (level : FeeLevel) (plan : GasPlan)
    (limit : UInt64) : Prop where
  solved : plan = (s.draft.planRequest s.account snapshot level).plan s.policy
  stored : s.plan = some plan
  gasLimit : s.gasLimit = some limit
  checks : s.checks = (s.draft.checkRequest s.account snapshot level plan limit).run s.policy
  feeCost : s.feeCost = some (snapshot.feeCost level limit)
  /-- The checks compare the same cost with the balance. -/
  compared : (s.draft.checkRequest s.account snapshot level plan limit).maxGasCost =
    (snapshot.feeCost level limit).most

structure Fresh (s : Session) : Prop where
  fingerprint : s.fingerprint = s.draft.fingerprint
  /-- A snapshot that is held is one of the draft. -/
  current : ∀ snapshot, s.snapshot = some snapshot → snapshot.fingerprint = s.fingerprint
  outcomes : s.outcomes = (s.catalog.map fun c => c.evaluate s.facts).getD []
  planned : ∀ snapshot level, s.snapshot = some snapshot → s.feeLevel = some level →
    ∃ plan limit, s.Planned snapshot level plan limit
  unplanned : s.snapshot = none ∨ s.feeLevel = none →
    s.plan = none ∧ s.checks = [] ∧ s.feeCost = none

variable {s s' : Session} {c : Command}

theorem feeCost_of_not_loaded (h : s.snapshot = none ∨ s.feeLevel = none) : s.feeCost = none := by
  rcases h with h | h
  · simp [feeCost, h]
  · cases hs : s.snapshot <;> simp [feeCost, h, hs]

theorem fresh_start (draft : Draft) (account : Account) (policy : GasPolicy) :
    Fresh (start draft account policy) where
  fingerprint := rfl
  current := fun _ h => nomatch h
  outcomes := rfl
  planned := fun _ _ h => nomatch h
  unplanned := fun _ => ⟨rfl, rfl, rfl⟩

/-- The session that is derived anew is planned wherever a snapshot and a fee level are there. -/
theorem planned_refresh {snapshot : Snapshot} {level : FeeLevel} (hs : s.snapshot = some snapshot)
    (hl : s.feeLevel = some level) : ∃ plan limit, s.refresh.Planned snapshot level plan limit := by
  obtain ⟨plan, hplan⟩ :
      ∃ plan, plan = (s.draft.planRequest s.account snapshot level).plan s.policy := ⟨_, rfl⟩
  obtain ⟨limit, hlimit⟩ : ∃ limit, limit = s.gasLimitOverride.getD plan.limit := ⟨_, rfl⟩
  have hrefresh := refresh_of_loaded hs hl
  have hsigned : s.refresh.gasLimit = some limit := by
    rw [hrefresh, hlimit, hplan]
    cases ho : s.gasLimitOverride <;> simp [gasLimit]
  refine ⟨plan, limit, ?_, ?_, hsigned, ?_, ?_, rfl⟩
  · rw [hrefresh, hplan]
  · rw [hrefresh, hplan]
  · rw [hrefresh, hlimit, hplan]
  · rw [feeCost, hsigned, hrefresh]
    simp [hs, hl]

/-- Deriving anew leaves nothing stale, provided that what it starts from belongs together. -/
theorem fresh_refresh (hf : s.fingerprint = s.draft.fingerprint)
    (hc : ∀ snapshot, s.snapshot = some snapshot → snapshot.fingerprint = s.fingerprint)
    (ho : s.outcomes = (s.catalog.map fun c => c.evaluate s.facts).getD []) :
    Fresh s.refresh := by
  have heq := refresh_eq s
  refine ⟨?_, ?_, ?_, ?_, ?_⟩
  · rw [heq]; exact hf
  · rw [heq]; exact hc
  · rw [heq]; exact ho
  · intro snapshot level hs hl
    rw [heq] at hs hl
    exact planned_refresh hs hl
  · intro hn
    have hs : s.snapshot = none ∨ s.feeLevel = none := by rw [heq] at hn; exact hn
    refine ⟨?_, ?_, feeCost_of_not_loaded hn⟩ <;> rw [refresh_of_not_loaded hs]

namespace Fresh

/-- Rules are evaluated and acknowledged apart from the plan. -/
theorem withRisk (h : Fresh s) {outcomes : List Outcome} {catalog : Option RuleCatalog}
    {facts : Facts} (ho : outcomes = (catalog.map fun c => c.evaluate facts).getD [])
    (acknowledged : Acknowledged) : Fresh { s with outcomes, catalog, facts, acknowledged } where
  fingerprint := h.fingerprint
  current := h.current
  outcomes := ho
  planned snapshot level hs hl := by
    obtain ⟨plan, limit, hp⟩ := h.planned snapshot level hs hl
    exact ⟨plan, limit, hp.solved, hp.stored, hp.gasLimit, hp.checks, hp.feeCost, hp.compared⟩
  unplanned := h.unplanned

theorem takes (h : Fresh s) (ht : s.Takes c s') : Fresh s' := by
  cases ht with
  | replaceDraft draft => exact fresh_start draft s.account s.policy
  | finalize | acknowledge | acknowledgeAll | undo => exact h.withRisk h.outcomes _
  | applyRules | setRuleEnabled => exact h.withRisk rfl _
  | applySnapshot last current =>
    refine fresh_refresh h.fingerprint ?_ h.outcomes
    rintro _ ⟨⟩
    exact current
  | selectFee | setGasLimit => exact fresh_refresh h.fingerprint h.current h.outcomes
  | setNonce nonce =>
    -- The nonce is no part of the fingerprint.
    exact fresh_refresh (h.fingerprint.trans (Draft.fingerprint_withNonce s.draft nonce).symm)
      h.current h.outcomes

/-- No rule has two outcomes. -/
theorem distinct_outcomes (h : Fresh s) : (s.outcomes.map (·.ruleId)).Nodup := by
  rw [h.outcomes]
  cases s.catalog with
  | none => exact .nil
  | some catalog => exact catalog.distinct_evaluate s.facts

end Fresh

theorem fresh_runAll (draft : Draft) (account : Account) (policy : GasPolicy)
    (commands : List Command) : Fresh ((start draft account policy).runAll commands) :=
  run_induction (motive := fun _ s => Fresh s) (fresh_start draft account policy)
    (fun _ h => h) (fun _ ht h => h.takes ht) commands

/-! ### The signer -/

theorem signer_of_takes (ht : s.Takes c s') : s'.account = s.account ∧ s'.policy = s.policy := by
  cases ht with
  | applySnapshot | selectFee | setGasLimit | setNonce => rw [refresh_eq]; exact ⟨rfl, rfl⟩
  | _ => exact ⟨rfl, rfl⟩

/-- No request changes the account or the policy. -/
theorem signer_runAll (draft : Draft) (account : Account) (policy : GasPolicy)
    (commands : List Command) :
    ((start draft account policy).runAll commands).account = account ∧
      ((start draft account policy).runAll commands).policy = policy := by
  refine run_induction (motive := fun _ s => s.account = account ∧ s.policy = policy) ⟨rfl, rfl⟩
    (fun _ h => h) ?_ commands
  rintro _ s c s' - ht ⟨ha, hp⟩
  obtain ⟨ha', hp'⟩ := signer_of_takes ht
  exact ⟨ha'.trans ha, hp'.trans hp⟩

/-- After every run, nothing that the session has derived is stale, and what it is derived from is
what the history of the run says. -/
theorem derived_fresh_runAll (draft : Draft) (account : Account) (policy : GasPolicy)
    (commands : List Command) :
    let first := start draft account policy
    let s := first.runAll commands
    s.given = (first.history commands).given draft ∧ s.account = account ∧ s.policy = policy ∧
      Fresh s :=
  have ⟨ha, hp⟩ := signer_runAll draft account policy commands
  ⟨given_runAll draft account policy commands, ha, hp, fresh_runAll draft account policy commands⟩

end Countersign.Session
