import Countersign.Risk
import Mathlib.Data.List.Basic

/-! How the risk depends on the outcomes and the acknowledgements. The order of the outcomes and
the outcomes of disabled rules do not matter, and with more acknowledgements there is less to deal
with. Main statement: `Risk.ofOutcomes_perm_mono`. -/

namespace Countersign

namespace Risk

/-! ### The gravest severity -/

theorem strongest?_eq_some_iff {severities : List Severity} {s : Severity} :
    strongest? severities = some s ↔
      s ∈ severities ∧ s ≠ .unknown ∧ ∀ t ∈ severities, t ≤ s := by
  simp only [strongest?, Severity.find?_evaluationOrder_eq_some_iff, List.contains_eq_mem,
    decide_eq_true_eq]
  constructor
  · rintro ⟨hs, hmem, hmax⟩
    refine ⟨hmem, hs, fun t ht => ?_⟩
    by_cases hunknown : t = .unknown
    · exact hunknown ▸ Severity.unknown_le s
    · exact hmax t hunknown ht
  · rintro ⟨hmem, hs, hmax⟩
    exact ⟨hs, hmem, fun t _ ht => hmax t ht⟩

theorem strongest?_congr {xs ys : List Severity} (h : ∀ s, s ∈ xs ↔ s ∈ ys) :
    strongest? xs = strongest? ys := by
  simp only [strongest?, List.contains_eq_mem, h]

/-- Among more severities the gravest is no milder. -/
theorem strongest?_mono {xs ys : List Severity} (h : xs ⊆ ys) : strongest? xs ≤ strongest? ys := by
  cases hx : strongest? xs with
  | none => exact Option.none_le
  | some s =>
    obtain ⟨hs, hknown, -⟩ := strongest?_eq_some_iff.1 hx
    cases hy : strongest? ys with
    | none => exact absurd (strongest?_eq_none_iff.1 hy s (h hs)) hknown
    | some t => exact Option.some_le_some.2 ((strongest?_eq_some_iff.1 hy).2.2 s (h hs))

/-! ### What blocks -/

variable {outcomes others : List Outcome} {acknowledged more : Acknowledged}

theorem blocksSubmit_iff : (ofOutcomes outcomes acknowledged).blocksSubmit = true ↔
    (∃ o ∈ outcomes, o.enabled = true ∧ o.severity = .forbidden) ∨
      (∃ o ∈ outcomes, o.enabled = true ∧ (o.severity = .warning ∨ o.severity = .danger) ∧
        acknowledged.contains o.ruleId = false) ∧
      ∀ o ∈ outcomes, o.enabled = true → o.severity ≠ .safe := by
  rw [← Bool.not_eq_false, blocksSubmit_eq_false_iff]
  grind

/-- Once every warning and danger is acknowledged, only what is forbidden has to be dealt with. -/
theorem ofOutcomes_of_acknowledged
    (h : ∀ o ∈ outcomes, o.enabled = true → o.severity = .warning ∨ o.severity = .danger →
      acknowledged.contains o.ruleId = true) :
    (ofOutcomes outcomes acknowledged).needsProcessing =
        (outcomes.filter fun o => o.enabled && o.severity = .forbidden).map (·.ruleId) ∧
      ((ofOutcomes outcomes acknowledged).blocksSubmit = true ↔
        ∃ o ∈ outcomes, o.enabled = true ∧ o.severity = .forbidden) := by
  constructor
  · refine congrArg (List.map _) (List.filter_congr fun o ho => ?_)
    rw [Bool.eq_iff_iff, isUnresolved_iff, Bool.and_eq_true, decide_eq_true_eq]
    refine and_congr_right fun hen => ?_
    have hack := h o ho hen
    cases hsev : o.severity <;> simp_all [Severity.needsProcessing]
  · rw [blocksSubmit_iff]
    refine or_iff_left ?_
    rintro ⟨⟨o, ho, hen, hsev, hopen⟩, -⟩
    rw [h o ho hen hsev] at hopen
    cases hopen

/-! ### Other outcomes -/

theorem isUnresolved_and_enabled (o : Outcome) :
    (isUnresolved acknowledged o && o.enabled) = isUnresolved acknowledged o :=
  Bool.and_eq_left_iff_imp.2 fun ho => (isUnresolved_iff.1 ho).1

/-- Disabled rules take no part. -/
theorem ofOutcomes_filter_enabled :
    ofOutcomes (outcomes.filter (·.enabled)) acknowledged = ofOutcomes outcomes acknowledged := by
  simp only [ofOutcomes, List.filter_filter, isUnresolved_and_enabled, Bool.and_self]

/-- The order of the outcomes is the order of what has to be dealt with, and matters for nothing
else. -/
theorem ofOutcomes_perm (h : others.Perm outcomes) (acknowledged : Acknowledged) :
    let risk := ofOutcomes outcomes acknowledged
    let risk' := ofOutcomes others acknowledged
    risk'.needsProcessing.Perm risk.needsProcessing ∧
      risk' = { risk with needsProcessing := risk'.needsProcessing } := by
  have henabled := h.filter (·.enabled)
  have hunresolved := h.filter (isUnresolved acknowledged)
  refine ⟨hunresolved.map _, ?_⟩
  simp only [ofOutcomes, henabled.any_eq, hunresolved.any_eq, hunresolved.isEmpty_eq,
    strongest?_congr fun s => (henabled.map (·.severity)).mem_iff,
    strongest?_congr fun s => (hunresolved.map (·.severity)).mem_iff]

/-! ### More acknowledgements -/

theorem contains_eq_false_of_more
    (h : ∀ id, acknowledged.contains id = true → more.contains id = true) {id : String}
    (hmore : more.contains id = false) : acknowledged.contains id = false := by
  rw [Bool.eq_false_iff] at *
  exact mt (h id) hmore

theorem forbidden_sublist_needsProcessing :
    ((outcomes.filter fun o => o.enabled && o.severity = .forbidden).map (·.ruleId)).Sublist
      (ofOutcomes outcomes acknowledged).needsProcessing := by
  refine List.Sublist.map _ (List.monotone_filter_right _ fun o ho => ?_)
  simp only [Bool.and_eq_true, decide_eq_true_eq] at ho
  exact isUnresolved_iff.2 ⟨ho.1, by rw [ho.2]; rfl, .inl ho.2⟩

/-- With more acknowledgements nothing new stands in the way, and less has to be dealt with. -/
theorem ofOutcomes_mono (outcomes : List Outcome)
    (h : ∀ id, acknowledged.contains id = true → more.contains id = true) :
    let risk := ofOutcomes outcomes acknowledged
    let risk' := ofOutcomes outcomes more
    (risk'.blocksSubmit = true → risk.blocksSubmit = true) ∧
      risk'.unresolved ≤ risk.unresolved ∧
      risk'.needsProcessing.Sublist risk.needsProcessing := by
  have hsublist : (outcomes.filter (isUnresolved more)).Sublist
      (outcomes.filter (isUnresolved acknowledged)) := by
    refine List.monotone_filter_right _ fun o ho => ?_
    obtain ⟨hen, hneeds, hopen⟩ := isUnresolved_iff.1 ho
    exact isUnresolved_iff.2 ⟨hen, hneeds, hopen.imp_right (contains_eq_false_of_more h)⟩
  refine ⟨fun hblocks => ?_, strongest?_mono (hsublist.map _).subset, hsublist.map _⟩
  rw [blocksSubmit_iff] at hblocks ⊢
  refine hblocks.imp_right (And.imp_left ?_)
  rintro ⟨o, ho, hen, hsev, hopen⟩
  exact ⟨o, ho, hen, hsev, contains_eq_false_of_more h hopen⟩

/-- Signing is blocked exactly by a forbidden outcome, or by a warning or danger that is not
acknowledged while nothing is safe. Lists with the same enabled outcomes, in whatever order, add up
to the same risk, but for the order of what has to be dealt with. With more acknowledgements less
has to be dealt with, but always every forbidden outcome. -/
theorem ofOutcomes_perm_mono (outcomes : List Outcome) (acknowledged : Acknowledged) :
    let risk := ofOutcomes outcomes acknowledged
    (risk.blocksSubmit = true ↔
      (∃ o ∈ outcomes, o.enabled = true ∧ o.severity = .forbidden) ∨
        (∃ o ∈ outcomes, o.enabled = true ∧ (o.severity = .warning ∨ o.severity = .danger) ∧
          acknowledged.contains o.ruleId = false) ∧
        ∀ o ∈ outcomes, o.enabled = true → o.severity ≠ .safe) ∧
      (∀ others : List Outcome,
        (others.filter (·.enabled)).Perm (outcomes.filter (·.enabled)) →
          let risk' := ofOutcomes others acknowledged
          risk'.overall = risk.overall ∧ risk'.unresolved = risk.unresolved ∧
            risk'.blocksSubmit = risk.blocksSubmit ∧ risk'.hasUnknown = risk.hasUnknown ∧
            risk'.needsProcessing.Perm risk.needsProcessing) ∧
      ∀ more : Acknowledged, (∀ id, acknowledged.contains id = true → more.contains id = true) →
        let risk' := ofOutcomes outcomes more
        (risk'.blocksSubmit = true → risk.blocksSubmit = true) ∧
          risk'.unresolved ≤ risk.unresolved ∧
          risk'.needsProcessing.Sublist risk.needsProcessing ∧
          ((outcomes.filter fun o => o.enabled && o.severity = .forbidden).map (·.ruleId)).Sublist
            risk'.needsProcessing := by
  intro risk
  refine ⟨blocksSubmit_iff, fun others h => ?_, fun more h => ?_⟩
  · have hperm := ofOutcomes_perm h acknowledged
    rw [ofOutcomes_filter_enabled, ofOutcomes_filter_enabled] at hperm
    obtain ⟨hneeds, hrisk⟩ := hperm
    intro risk'
    rw [show risk' = _ from hrisk]
    exact ⟨rfl, rfl, rfl, rfl, hneeds⟩
  · obtain ⟨hblocks, hunresolved, hneeds⟩ := ofOutcomes_mono outcomes h
    exact ⟨hblocks, hunresolved, hneeds, forbidden_sublist_needsProcessing⟩

/-- A danger, a disabled warning and a forbidden outcome. -/
def sampleOutcomes : List Outcome :=
  [⟨"route", .danger, true, none⟩, ⟨"age", .warning, false, none⟩,
    ⟨"sanctions", .forbidden, true, none⟩]

/-- The other way round and without the warning, the gravest that is not dealt with is the same. It
is no graver once the danger is acknowledged, and what is forbidden has still to be dealt with. -/
theorem ofOutcomes_perm_mono_sample :
    let acknowledged := NameSet.ofNames ["age"]
    let more := NameSet.ofNames ["age", "route"]
    let reordered : List Outcome :=
      [⟨"sanctions", .forbidden, true, none⟩, ⟨"route", .danger, true, none⟩]
    (ofOutcomes reordered acknowledged).unresolved =
        (ofOutcomes sampleOutcomes acknowledged).unresolved ∧
      (ofOutcomes sampleOutcomes more).unresolved ≤
        (ofOutcomes sampleOutcomes acknowledged).unresolved ∧
      ["sanctions"].Sublist (ofOutcomes sampleOutcomes more).needsProcessing := by
  intro acknowledged more reordered
  obtain ⟨-, horder, hmore⟩ := ofOutcomes_perm_mono sampleOutcomes acknowledged
  have hgrows : ∀ id, acknowledged.contains id = true → more.contains id = true := by
    intro id hid
    rw [Table.contains_iff_mem_keys] at hid ⊢
    have hkeys : acknowledged.keys ⊆ more.keys := by decide +kernel
    exact hkeys hid
  have hperm : (reordered.filter (·.enabled)).Perm (sampleOutcomes.filter (·.enabled)) := by
    decide +kernel
  obtain ⟨-, hunresolved, -, hforbidden⟩ := hmore more hgrows
  exact ⟨(horder reordered hperm).2.1, hunresolved, hforbidden⟩

end Risk

end Countersign
