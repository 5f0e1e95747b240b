import Countersign.Proofs.Rule.Enabled
import Countersign.Proofs.Session.Acknowledgement
import Countersign.Proofs.Session.Fresh

/-! Dangers that are dealt with. A danger is dealt with as soon as its rule is acknowledged,
whatever the rule found when it was acknowledged. An acknowledgement that was given since the rules
were applied last was given for the danger; an older one may have been given for something
milder. -/

namespace Countersign.Session

/-- An enabled rule finds the given severity. -/
def finds (s : Session) (id : String) (severity : Severity) : Bool :=
  s.enabledOutcomes.any fun o => o.ruleId = id && o.severity = severity

variable {s s' : Session} {c : Command} {id : String} {severity : Severity}

theorem finds_iff : s.finds id severity = true ↔
    ∃ o ∈ s.outcomes, o.enabled = true ∧ o.ruleId = id ∧ o.severity = severity := by
  simp [finds, enabledOutcomes]

theorem Fresh.outcome_unique (h : Fresh s) {o p : Outcome} (ho : o ∈ s.outcomes)
    (hp : p ∈ s.outcomes) (hid : o.ruleId = p.ruleId) : o = p :=
  List.inj_on_of_nodup_map h.distinct_outcomes ho hp hid

/-- A danger is dealt with exactly if its rule is acknowledged. -/
theorem Fresh.notMem_needsProcessing (h : Fresh s) (hd : s.finds id .danger = true) :
    id ∉ s.risk.needsProcessing ↔ s.acknowledged.contains id = true := by
  obtain ⟨o, ho, hen, rfl, hsev⟩ := finds_iff.1 hd
  rw [risk, Risk.mem_needsProcessing, not_exists]
  constructor
  · intro hn
    by_contra hc
    refine hn o ⟨ho, Risk.isUnresolved_iff.2 ⟨hen, by rw [hsev]; rfl, .inr ?_⟩, rfl⟩
    simpa using hc
  · rintro hc p ⟨hp, hunresolved, hid⟩
    obtain rfl := h.outcome_unique hp ho hid
    rcases (Risk.isUnresolved_iff.1 hunresolved).2.2 with hf | hf
    · rw [hsev] at hf; cases hf
    · rw [hc] at hf; cases hf

/-! ### Decisions about a danger -/

namespace Event

/-- The request acknowledges a danger as such: it confirms the danger of the rule, or takes every
danger there is, while the rule finds one. -/
def decidesDanger (t : Event) (id : String) : Bool :=
  t.before.finds id .danger && match t.command with
    | .acknowledge other confirmed => other = id && confirmed && t.accepted
    | .acknowledgeAll => true
    | _ => false

/-- The request evaluates rules on facts that are taken in. -/
def appliesRules (t : Event) : Bool :=
  match t.command with
  | .applyRules .. => t.accepted
  | _ => false

/-- A danger is acknowledged only as such. -/
theorem decidesDanger_iff (hf : Fresh s) : decidesDanger ⟨s, c⟩ id = true ↔
    acknowledges ⟨s, c⟩ id = true ∧ s.finds id .danger = true := by
  rw [decidesDanger, Bool.and_eq_true, and_comm, and_congr_left_iff]
  intro hd
  obtain ⟨o, ho, hen, hid, hsev⟩ := finds_iff.1 hd
  have hmem : o ∈ s.enabledOutcomes := List.mem_filter.2 ⟨ho, hen⟩
  cases c with
  | acknowledge other confirmed =>
    have hconfirmed : other = id → accepted ⟨s, .acknowledge other confirmed⟩ = true →
        confirmed = true := by
      rintro rfl ha
      obtain ⟨_, ht⟩ := takes_of_accepted ha
      cases ht with
      | acknowledge allowed =>
        refine Acknowledged.confirmed_of_refusal? allowed fun p hp hpid => ?_
        rw [hf.outcome_unique (List.mem_filter.1 hp).1 ho (hpid.trans hid.symm), hsev]
    simp only [acknowledges, Bool.and_eq_true, decide_eq_true_eq]
    exact ⟨fun h => ⟨h.1.1, h.2⟩, fun h => ⟨⟨h.1, hconfirmed h.1 h.2⟩, h.2⟩⟩
  | acknowledgeAll =>
    have htaken : Acknowledged.takesAll o = true := by simp [Acknowledged.takesAll, hsev]
    simpa [acknowledges] using ⟨o, hmem, htaken, hid⟩
  | _ => simp [acknowledges]

end Event

theorem finds_congr (h : ∀ o, o.ruleId = id → (o ∈ s'.outcomes ↔ o ∈ s.outcomes)) :
    s'.finds id severity = s.finds id severity := by
  rw [Bool.eq_iff_iff, finds_iff, finds_iff]
  refine exists_congr fun o => ?_
  constructor
  · rintro ⟨ho, hen, hid, hsev⟩
    exact ⟨(h o hid).1 ho, hen, hid, hsev⟩
  · rintro ⟨ho, hen, hid, hsev⟩
    exact ⟨(h o hid).2 ho, hen, hid, hsev⟩

/-- A request that neither releases a rule nor applies rules leaves what the rule finds as it
was. -/
theorem finds_of_takes (hf : Fresh s) (ha : Event.accepted ⟨s, c⟩ = true) (ht : s.Takes c s')
    (hrel : Event.releases ⟨s, c⟩ id = false) (happ : Event.appliesRules ⟨s, c⟩ = false) :
    s'.finds id severity = s.finds id severity := by
  cases ht with
  | replaceDraft | finalize => cases hrel
  | applyRules => rw [Event.appliesRules, ha] at happ; cases happ
  | acknowledge | acknowledgeAll | undo => rfl
  | applySnapshot | selectFee | setGasLimit | setNonce => rw [refresh_eq]; rfl
  | setRuleEnabled loaded known =>
    refine finds_congr fun o hid => ?_
    rw [hf.outcomes, loaded]
    refine RuleCatalog.mem_evaluate_of_withEnabled? known fun he => ?_
    rw [Event.releases, ha, ← he, hid] at hrel
    simp at hrel

namespace History

/-- The requests since the rule was released last and rules were applied last. -/
def sinceRules (h : History) (id : String) : History :=
  (h.sinceRelease id).takeWhile fun t => !t.appliesRules

/-- Since its last release, a danger of the rule was acknowledged as such. -/
def DecidesDanger (h : History) (id : String) : Prop :=
  ∃ t ∈ h.sinceRelease id, t.decidesDanger id = true

theorem mem_sinceRules_cons {t e : Event} {h : History} : t ∈ sinceRules (e :: h) id ↔
    e.releases id = false ∧ e.appliesRules = false ∧ (t = e ∨ t ∈ h.sinceRules id) := by
  cases hr : e.releases id <;> cases ha : e.appliesRules <;> simp [sinceRules, sinceRelease, hr, ha]

end History

/-- Since the rules were applied last, a rule has found what it finds now. -/
theorem finds_sinceRules (draft : Draft) (account : Account) (policy : GasPolicy)
    (commands : List Command) (id : String) (severity : Severity) :
    ∀ t ∈ ((start draft account policy).history commands).sinceRules id,
      t.before.finds id severity =
        ((start draft account policy).runAll commands).finds id severity := by
  refine (run_induction (motive := fun past s => Fresh s ∧ ∀ t ∈ History.sinceRules past id,
    t.before.finds id severity = s.finds id severity) ?_ ?_ ?_ commands).2
  · exact ⟨fresh_start draft account policy, fun _ ht => nomatch ht⟩
  · rintro past s c - ⟨hf, ih⟩
    refine ⟨hf, fun t ht => ?_⟩
    obtain ⟨-, -, rfl | ht⟩ := History.mem_sinceRules_cons.1 ht
    · rfl
    · exact ih t ht
  · rintro past s c s' ha htakes ⟨hf, ih⟩
    refine ⟨hf.takes htakes, fun t ht => ?_⟩
    obtain ⟨hrel, happ, ht⟩ := History.mem_sinceRules_cons.1 ht
    rw [finds_of_takes hf ha htakes hrel happ]
    rcases ht with rfl | ht
    · rfl
    · exact ih t ht

/-- A danger is dealt with exactly if its rule is acknowledged. It is then decided on as a danger
exactly if one of the acknowledgements since the rule was released last was given while the rule
found the danger. Those since the rules were applied last all were. -/
theorem decidesDanger_runAll (draft : Draft) (account : Account) (policy : GasPolicy)
    (commands : List Command) (id : String)
    (hd : ((start draft account policy).runAll commands).finds id .danger = true) :
    let first := start draft account policy
    let s := first.runAll commands
    let h := first.history commands
    (id ∉ s.risk.needsProcessing ↔ h.Acknowledges id) ∧
      ((id ∉ s.risk.needsProcessing → h.DecidesDanger id) ↔
        (h.Acknowledges id → ∃ t ∈ h.sinceRelease id,
          t.acknowledges id = true ∧ t.before.finds id .danger = true)) ∧
      ∀ t ∈ h.sinceRules id, t.acknowledges id = true → h.DecidesDanger id := by
  intro first s h
  have hneeds : id ∉ s.risk.needsProcessing ↔ h.Acknowledges id :=
    ((fresh_runAll draft account policy commands).notMem_needsProcessing hd).trans
      (contains_acknowledged_runAll draft account policy commands id)
  have hdecides : ∀ t ∈ h, t.decidesDanger id = true ↔
      t.acknowledges id = true ∧ t.before.finds id .danger = true := fun t ht =>
    Event.decidesDanger_iff
      (before_of_mem_history (fresh_runAll draft account policy) commands t ht)
  refine ⟨hneeds, ?_, fun t ht hack => ?_⟩
  · rw [hneeds]
    refine imp_congr_right fun _ => exists_congr fun t => and_congr_right fun ht => ?_
    exact hdecides t ((List.takeWhile_sublist _).mem ht)
  · have hfinds := (finds_sinceRules draft account policy commands id .danger t ht).trans hd
    have hmem : t ∈ h.sinceRelease id := (List.takeWhile_sublist _).mem ht
    exact ⟨t, hmem, (hdecides t ((List.takeWhile_sublist _).mem hmem)).2 ⟨hack, hfinds⟩⟩

/-! ### A rule that gets graver -/

/-- A rule that warns about `false` and finds a danger in `true`. -/
def sampleRule : Rule where
  id := "spender"
  factKey := "spender"
  enabled := true
  kind := .boolean
  defaults := Table.ofList [(.warning, .flag false), (.danger, .flag true)]
  custom := .empty

/-- The request that evaluates the rule on a fact. -/
def applySample (fact : Bool) : Command :=
  .applyRules sampleDraft.fingerprint ⟨[sampleRule], by simp⟩
    (Table.ofList [("spender", .bool fact)])

theorem danger_confirmed :
    let commands := [applySample true, .acknowledge "spender" true]
    (sample.runAll commands).finds "spender" .danger = true ∧
      "spender" ∉ (sample.runAll commands).risk.needsProcessing ∧
      (sample.history commands).DecidesDanger "spender" := by
  intro commands
  have hd : (sample.runAll commands).finds "spender" .danger = true := by decide +kernel
  have hneeds : "spender" ∉ (sample.runAll commands).risk.needsProcessing := by decide +kernel
  have hwhile : ∃ t ∈ (sample.history commands).sinceRelease "spender",
      t.acknowledges "spender" = true ∧ t.before.finds "spender" .danger = true := by
    decide +kernel
  have hrun := decidesDanger_runAll sampleDraft ⟨true, false⟩ .standard commands "spender" hd
  exact ⟨hd, hneeds, hrun.2.1.2 (fun _ => hwhile) hneeds⟩

/-- A danger is dealt with although all that was acknowledged is the warning before it. -/
theorem danger_acknowledged_as_warning :
    let commands := [applySample false, .acknowledge "spender" false, applySample true]
    (sample.runAll commands).finds "spender" .danger = true ∧
      "spender" ∉ (sample.runAll commands).risk.needsProcessing ∧
      ¬ (sample.history commands).DecidesDanger "spender" := by
  intro commands
  refine ⟨by decide +kernel, by decide +kernel, ?_⟩
  unfold History.DecidesDanger
  decide +kernel

end Countersign.Session
