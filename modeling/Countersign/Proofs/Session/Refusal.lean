import Countersign.Proofs.Session.Danger
import Countersign.Proofs.Session.InPlace

/-! Requests that are refused. `Refuses` lists the reasons that a session may have. A request is
refused exactly for one of them, and then the session is what it was, also if requests change it in
place. -/

namespace Countersign.Session

/-- `s.Refuses c e`: the session `s` has the reason `e` to refuse the request `c`. -/
inductive Refuses (s : Session) : Command → SessionError → Prop where
  | staleRules {fingerprint : Fingerprint} (h : fingerprint ≠ s.draft.fingerprint)
      (catalog : RuleCatalog) (facts : Facts) :
    Refuses s (.applyRules fingerprint catalog facts) (.stale s.draft.fingerprint fingerprint)
  | staleSnapshot {snapshot : Snapshot} (h : snapshot.fingerprint ≠ s.draft.fingerprint)
      (last : Option LastChoice) :
    Refuses s (.applySnapshot snapshot last) (.stale s.draft.fingerprint snapshot.fingerprint)
  | notLoaded (h : s.catalog = none) (id : String) (enabled : Bool) :
    Refuses s (.setRuleEnabled id enabled) .rulesNotLoaded
  | notInCatalog {catalog : RuleCatalog} (loaded : s.catalog = some catalog) {id : String}
      (h : ∀ r ∈ catalog.rules, r.id ≠ id) (enabled : Bool) :
    Refuses s (.setRuleEnabled id enabled) (.unknownRule id)
  | noOutcome {id : String} (h : ∀ o ∈ s.outcomes, o.enabled = true → o.ruleId ≠ id)
      (confirmed : Bool) :
    Refuses s (.acknowledge id confirmed) (.acknowledge (.unknownRule id))
  | forbidden {id : String} (h : s.finds id .forbidden = true) (confirmed : Bool) :
    Refuses s (.acknowledge id confirmed) (.acknowledge (.forbidden id))
  | danger {id : String} (h : s.finds id .danger = true) :
    Refuses s (.acknowledge id false) (.acknowledge (.dangerNotConfirmed id))

variable {s s' : Session} {c : Command} {e : SessionError}

/-! ### Acknowledging -/

theorem finds_eq_false {id : String} (h : ∀ o ∈ s.outcomes, o.enabled = true → o.ruleId ≠ id)
    (severity : Severity) : s.finds id severity = false := by
  rw [Bool.eq_false_iff, ne_eq, finds_iff]
  rintro ⟨o, ho, hen, hid, -⟩
  exact h o ho hen hid

/-- An enabled rule finds the severity of its outcome and no other. -/
theorem Fresh.finds_outcome (hf : Fresh s) {o : Outcome} (ho : o ∈ s.outcomes)
    (hen : o.enabled = true) {severity : Severity} :
    s.finds o.ruleId severity = true ↔ o.severity = severity := by
  rw [finds_iff]
  constructor
  · rintro ⟨p, hp, -, hid, hsev⟩
    rw [← hf.outcome_unique hp ho hid]
    exact hsev
  · intro hsev
    exact ⟨o, ho, hen, rfl, hsev⟩

theorem Fresh.refusal?_eq_some_iff (hf : Fresh s) {id : String} {confirmed : Bool}
    {e : AcknowledgeError} :
    Acknowledged.refusal? s.enabledOutcomes id confirmed = some e ↔
      s.Refuses (.acknowledge id confirmed) (.acknowledge e) := by
  unfold Acknowledged.refusal?
  cases hfind : s.enabledOutcomes.find? fun o => o.ruleId = id with
  | none =>
    have hnone : ∀ o ∈ s.outcomes, o.enabled = true → o.ruleId ≠ id := by
      simpa [enabledOutcomes] using hfind
    constructor
    · rintro ⟨⟩
      exact .noOutcome hnone confirmed
    · intro h
      cases h with
      | noOutcome => rfl
      | forbidden h | danger h => rw [finds_eq_false hnone] at h; cases h
  | some o =>
    obtain ⟨ho, hen⟩ : o ∈ s.outcomes ∧ o.enabled = true :=
      List.mem_filter.1 (List.mem_of_find?_eq_some hfind)
    obtain rfl : o.ruleId = id := by simpa using List.find?_some hfind
    constructor
    · intro h
      cases hsev : o.severity with
      | forbidden =>
        simp only [hsev, Option.some.injEq] at h
        subst h
        exact .forbidden ((hf.finds_outcome ho hen).2 hsev) confirmed
      | danger =>
        simp only [hsev] at h
        split at h
        · cases h
        · next hconfirmed =>
          cases h
          rw [Bool.not_eq_true] at hconfirmed
          subst hconfirmed
          exact .danger ((hf.finds_outcome ho hen).2 hsev)
      | unknown | safe | warning => simp [hsev] at h
    · intro h
      cases h with
      | noOutcome h => exact absurd rfl (h o ho hen)
      | forbidden h => simp [(hf.finds_outcome ho hen).1 h]
      | danger h => simp [(hf.finds_outcome ho hen).1 h]

/-! ### Switching a rule -/

theorem withEnabled?_eq_none_iff {catalog : RuleCatalog} {id : String} {enabled : Bool} :
    catalog.withEnabled? id enabled = none ↔ ∀ r ∈ catalog.rules, r.id ≠ id := by
  simp [RuleCatalog.withEnabled?, RuleCatalog.get?]

theorem setRuleEnabled_eq_error_iff {id : String} {enabled : Bool} :
    s.setRuleEnabled id enabled = .error e ↔ s.Refuses (.setRuleEnabled id enabled) e := by
  unfold setRuleEnabled
  cases hcatalog : s.catalog with
  | none =>
    constructor
    · rintro ⟨⟩
      exact .notLoaded hcatalog id enabled
    · intro h
      cases h with
      | notLoaded => rfl
      | notInCatalog loaded => rw [hcatalog] at loaded; cases loaded
  | some catalog =>
    dsimp only
    cases hupdated : catalog.withEnabled? id enabled with
    | none =>
      constructor
      · rintro ⟨⟩
        exact .notInCatalog hcatalog (withEnabled?_eq_none_iff.1 hupdated) enabled
      · intro h
        cases h with
        | notLoaded h => rw [hcatalog] at h; cases h
        | notInCatalog => rfl
    | some updated =>
      constructor
      · rintro ⟨⟩
      · intro h
        cases h with
        | notLoaded h => rw [hcatalog] at h; cases h
        | notInCatalog loaded h =>
          cases hcatalog.symm.trans loaded
          cases hupdated.symm.trans (withEnabled?_eq_none_iff.2 h)

/-! ### Any request -/

theorem settle_eq_refused_iff {r : Except SessionError Session} :
    (s.settle r).1 = .refused e ↔ r = .error e := by
  cases r <;> simp [settle]

theorem Fresh.reply_eq_refused_iff (hf : Fresh s) :
    (s.perform c).1 = .refused e ↔ s.Refuses c e := by
  cases c with
  | replaceDraft | finalize | acknowledgeAll | undo | selectFee | setGasLimit | setNonce =>
    constructor <;> intro h <;> cases h
  | applyRules fingerprint catalog facts =>
    have hstale : (s.perform (.applyRules fingerprint catalog facts)).1 = .refused e ↔
        fingerprint ≠ s.draft.fingerprint ∧ e = .stale s.draft.fingerprint fingerprint := by
      rw [← hf.fingerprint]
      exact settle_eq_refused_iff.trans ifCurrent_eq_error_iff
    rw [hstale]
    constructor
    · rintro ⟨h, rfl⟩
      exact .staleRules h catalog facts
    · rintro ⟨h⟩
      exact ⟨h, rfl⟩
  | applySnapshot snapshot last =>
    have hstale : (s.perform (.applySnapshot snapshot last)).1 = .refused e ↔
        snapshot.fingerprint ≠ s.draft.fingerprint ∧
          e = .stale s.draft.fingerprint snapshot.fingerprint := by
      rw [← hf.fingerprint]
      exact settle_eq_refused_iff.trans ifCurrent_eq_error_iff
    rw [hstale]
    constructor
    · rintro ⟨h, rfl⟩
      exact .staleSnapshot h last
    · intro h
      cases h with
      | staleSnapshot h => exact ⟨h, rfl⟩
  | acknowledge id confirmed =>
    have hrefusal : (s.perform (.acknowledge id confirmed)).1 = .refused e ↔
        ∃ a, Acknowledged.refusal? s.enabledOutcomes id confirmed = some a ∧
          .acknowledge a = e := by
      simp only [perform, acknowledge, Acknowledged.acknowledge]
      cases Acknowledged.refusal? s.enabledOutcomes id confirmed <;> simp
    simp only [hrefusal, hf.refusal?_eq_some_iff]
    constructor
    · rintro ⟨a, h, rfl⟩
      exact h
    · intro h
      cases h with
      | noOutcome h => exact ⟨_, .noOutcome h confirmed, rfl⟩
      | forbidden h => exact ⟨_, .forbidden h confirmed, rfl⟩
      | danger h => exact ⟨_, .danger h, rfl⟩
  | setRuleEnabled id enabled => exact settle_eq_refused_iff.trans setRuleEnabled_eq_error_iff

theorem result_eq_error_iff {r : Reply} : r.result = .error e ↔ r = .refused e := by
  cases r <;> simp [Reply.result]

/-- After every run, a request is refused exactly for one of the reasons that there are, and then
nothing of the session has changed, whether it is given anew or changed in place. -/
theorem refusals_runAll (draft : Draft) (account : Account) (policy : GasPolicy)
    (commands : List Command) (c : Command) (e : SessionError) (s' : Session) :
    let s := (start draft account policy).runAll commands
    ((InPlace.ofCommand c).on s = (.error e, s') ↔ s.Refuses c e ∧ s' = s) ∧
      (s.perform c = (.refused e, s') ↔ s.Refuses c e ∧ s' = s) := by
  intro s
  have hreply : (s.perform c).1 = .refused e ↔ s.Refuses c e :=
    (fresh_runAll draft account policy commands).reply_eq_refused_iff
  have hperform : s.perform c = (.refused e, s') ↔ s.Refuses c e ∧ s' = s := by
    rw [Prod.ext_iff, hreply]
    refine and_congr_right fun h => ?_
    rw [perform_refused (hreply.2 h)]
    exact eq_comm
  refine ⟨?_, hperform⟩
  rw [on_ofCommand, ← hperform, Prod.ext_iff, Prod.ext_iff, result_eq_error_iff]

end Countersign.Session
