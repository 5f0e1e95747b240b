import Countersign.Proofs.Check.Findings
import Countersign.Proofs.Session.Acknowledgement
import Countersign.Proofs.Session.Fresh

/-! When a draft may be signed. After every run the verdict is what the history of the run says: it
depends on what has been taken in for the draft at hand and on the acknowledgements that stand, and
on nothing else. -/

namespace Countersign

/-! ### Rules -/

/-- The severity of a rule's outcome, if it has one. -/
def Rule.finds? (r : Rule) (facts : Facts) : Option Severity :=
  (r.evaluate? facts).map (·.severity)

namespace RuleCatalog

/-- The enabled rules do not stand in the way of signing: none finds the draft forbidden, and unless
one finds it safe, all that find a warning or a danger are acknowledged. -/
structure Clears (catalog : RuleCatalog) (facts : Facts) (acknowledged : String → Prop) : Prop where
  notForbidden : ∀ r ∈ catalog.rules, r.enabled = true → r.finds? facts ≠ some .forbidden
  dealtWith : (∃ r ∈ catalog.rules, r.enabled = true ∧ r.finds? facts = some .safe) ∨
    ∀ r ∈ catalog.rules, r.enabled = true →
      r.finds? facts = some .warning ∨ r.finds? facts = some .danger → acknowledged r.id

variable {catalog : RuleCatalog} {facts : Facts}

theorem exists_outcome {r : Rule} {severity : Severity} (hr : r ∈ catalog.rules)
    (hs : r.finds? facts = some severity) : ∃ o ∈ catalog.evaluate facts,
      o.ruleId = r.id ∧ o.enabled = r.enabled ∧ o.severity = severity := by
  obtain ⟨o, ho, hsev⟩ := Option.map_eq_some_iff.1 hs
  obtain ⟨hid, hen⟩ := Rule.ruleId_of_evaluate? ho
  exact ⟨o, List.mem_filterMap.2 ⟨r, hr, ho⟩, hid, hen, hsev⟩

theorem exists_rule {o : Outcome} (ho : o ∈ catalog.evaluate facts) : ∃ r ∈ catalog.rules,
    r.id = o.ruleId ∧ r.enabled = o.enabled ∧ r.finds? facts = some o.severity := by
  obtain ⟨r, hr, hro⟩ := List.mem_filterMap.1 ho
  obtain ⟨hid, hen⟩ := Rule.ruleId_of_evaluate? hro
  exact ⟨r, hr, hid.symm, hen.symm, by rw [Rule.finds?, hro]; rfl⟩

/-- The risk of a catalog's outcomes does not block exactly if the catalog clears the draft. -/
theorem blocksSubmit_evaluate {acknowledged : Acknowledged} :
    (Risk.ofOutcomes (catalog.evaluate facts) acknowledged).blocksSubmit = false ↔
      catalog.Clears facts fun id => acknowledged.contains id = true := by
  rw [Risk.blocksSubmit_eq_false_iff]
  constructor
  · rintro ⟨hf, hd⟩
    refine ⟨fun r hr he hs => ?_, hd.imp ?_ fun hall r hr he hs => ?_⟩
    · obtain ⟨o, ho, -, hen, hsev⟩ := exists_outcome hr hs
      exact hf o ho (hen.trans he) hsev
    · rintro ⟨o, ho, he, hs⟩
      obtain ⟨r, hr, -, hen, hfinds⟩ := exists_rule ho
      exact ⟨r, hr, hen.trans he, hs ▸ hfinds⟩
    · obtain ⟨severity, hfinds, hsev⟩ : ∃ severity, r.finds? facts = some severity ∧
          (severity = .warning ∨ severity = .danger) := by
        rcases hs with hs | hs
        · exact ⟨_, hs, .inl rfl⟩
        · exact ⟨_, hs, .inr rfl⟩
      obtain ⟨o, ho, hid, hen, rfl⟩ := exists_outcome hr hfinds
      exact hid ▸ hall o ho (hen.trans he) hsev
  · rintro ⟨hf, hd⟩
    refine ⟨fun o ho he hs => ?_, hd.imp ?_ fun hall o ho he hs => ?_⟩
    · obtain ⟨r, hr, -, hen, hfinds⟩ := exists_rule ho
      exact hf r hr (hen.trans he) (hs ▸ hfinds)
    · rintro ⟨r, hr, he, hs⟩
      obtain ⟨o, ho, -, hen, hsev⟩ := exists_outcome hr hs
      exact ⟨o, ho, hen.trans he, hsev⟩
    · obtain ⟨r, hr, hid, hen, hfinds⟩ := exists_rule ho
      rw [← hid]
      exact hall r hr (hen.trans he) (by simpa [hfinds] using hs)

end RuleCatalog

namespace Session

/-! ### What clears a draft -/

/-- The gas limit that is signed: one that was set, or else the planned one. -/
def Given.limit (g : Given) (account : Account) (policy : GasPolicy) (snapshot : Snapshot)
    (level : FeeLevel) : UInt64 :=
  g.gasLimit.getD ((g.draft.planRequest account snapshot level).plan policy).limit

/-- A gas limit is high enough, and the balance covers the gas, the fee of the base chain and the
value. -/
structure Given.Affords (g : Given) (policy : GasPolicy) (snapshot : Snapshot) (level : FeeLevel)
    (limit : UInt64) : Prop where
  minimum : policy.minimumGasLimit ≤ limit
  covered : min (limit.toNat * level.price.toNat + (snapshot.baseFee.getD .zero).toNat +
    g.draft.value.toNat) (Wei.size - 1) ≤ snapshot.balance.toNat

/-- Nothing stands in the way of signing. -/
structure Given.Cleared (g : Given) (account : Account) (policy : GasPolicy)
    (acknowledged : String → Prop) (catalog : RuleCatalog) (snapshot : Snapshot)
    (level : FeeLevel) : Prop where
  rulesLoaded : g.catalog = some catalog
  chainLoaded : g.snapshot = some snapshot
  safeLoaded : account.isMultisig = true → snapshot.safe.isSome = true
  feeSelected : g.feeLevel = some level
  canSign : account.canSign = true
  affords : account.isMultisig = false →
    g.Affords policy snapshot level (g.limit account policy snapshot level)
  clears : catalog.Clears g.facts acknowledged

variable {s : Session} {catalog : RuleCatalog} {snapshot : Snapshot} {level : FeeLevel}

theorem Fresh.blocksSubmit_risk (h : Fresh s) (hc : s.catalog = some catalog) :
    s.risk.blocksSubmit = false ↔
      catalog.Clears s.facts fun id => s.acknowledged.contains id = true := by
  rw [risk, h.outcomes, hc]
  exact RuleCatalog.blocksSubmit_evaluate

theorem Planned.eq_limit {plan : GasPlan} {limit : UInt64}
    (h : s.Planned snapshot level plan limit) :
    limit = s.given.limit s.account s.policy snapshot level := by
  have hlimit := h.gasLimit
  rw [Session.gasLimit, h.stored, h.solved] at hlimit
  show limit = s.gasLimitOverride.getD _
  cases ho : s.gasLimitOverride with
  | none => rw [ho] at hlimit; exact (Option.some.inj hlimit).symm
  | some own => rw [ho] at hlimit; exact (Option.some.inj hlimit).symm

/-- The checks let a draft pass if the account is a multisig or affords it. -/
theorem Fresh.checks_pass (h : Fresh s) (hs : s.snapshot = some snapshot)
    (hl : s.feeLevel = some level) :
    (∀ c ∈ s.checks, c.isForbidden = false) ↔ (s.account.isMultisig = false →
      s.given.Affords s.policy snapshot level
        (s.given.limit s.account s.policy snapshot level)) := by
  obtain ⟨plan, limit, hp⟩ := h.planned snapshot level hs hl
  have hcost : ((s.draft.checkRequest s.account snapshot level plan limit).maxGasCost +
      s.draft.value).toNat = _ := FeeCost.toNat_of_add limit level.price snapshot.baseFee _
  rw [← hp.eq_limit, hp.checks, CheckRequest.forall_mem_run_isForbidden, ← Bool.not_eq_true,
    ← Classical.or_iff_not_imp_left]
  refine or_congr_right ⟨?_, ?_⟩
  · rintro ⟨hmin, hbal⟩
    exact ⟨hmin, hcost ▸ hbal⟩
  · rintro ⟨hmin, hbal⟩
    exact ⟨hmin, Wei.le_def.2 (hcost ▸ hbal)⟩

theorem Fresh.canSubmit_verdict (h : Fresh s) :
    s.verdict.canSubmit = true ↔ ∃ catalog snapshot level,
      s.given.Cleared s.account s.policy (fun id => s.acknowledged.contains id = true)
        catalog snapshot level := by
  rw [verdict, VerdictRequest.canSubmit_decide]
  simp only [verdictRequest, Bool.and_eq_true, chainReady]
  constructor
  · rintro ⟨⟨hc, hready⟩, hl, hchecks, hsign, hrisk⟩
    obtain ⟨catalog, hc⟩ := Option.isSome_iff_exists.1 hc
    obtain ⟨level, hl⟩ := Option.isSome_iff_exists.1 hl
    obtain ⟨snapshot, hs, hsafe⟩ := (Option.any_eq_true _ _).1 hready
    refine ⟨catalog, snapshot, level, hc, hs, ?_, hl, hsign, (h.checks_pass hs hl).1 hchecks,
      (h.blocksSubmit_risk hc).1 hrisk⟩
    intro hm
    simpa [hm] using hsafe
  · rintro ⟨catalog, snapshot, level, hc, hs, hsafe, hl, hsign, haffords, hclears⟩
    refine ⟨⟨Option.isSome_iff_exists.2 ⟨_, hc⟩, (Option.any_eq_true _ _).2 ⟨snapshot, hs, ?_⟩⟩,
      Option.isSome_iff_exists.2 ⟨_, hl⟩, (h.checks_pass hs hl).2 haffords, hsign,
      (h.blocksSubmit_risk hc).2 hclears⟩
    cases hm : s.account.isMultisig with
    | false => rfl
    | true => exact hsafe hm

/-- After every run the draft may be signed exactly if what its history says clears it. -/
theorem canSubmit_runAll (draft : Draft) (account : Account) (policy : GasPolicy)
    (commands : List Command) :
    let first := start draft account policy
    let h := first.history commands
    (first.runAll commands).verdict.canSubmit = true ↔ ∃ catalog snapshot level,
      (h.given draft).Cleared account policy h.Acknowledges catalog snapshot level := by
  intro first h
  obtain ⟨ha, hp⟩ := signer_runAll draft account policy commands
  have hack : (fun id => (first.runAll commands).acknowledged.contains id = true) =
      h.Acknowledges :=
    funext fun id => propext (contains_acknowledged_runAll draft account policy commands id)
  rw [(fresh_runAll draft account policy commands).canSubmit_verdict, hack,
    given_runAll draft account policy commands, ha, hp]

end Session

end Countersign
