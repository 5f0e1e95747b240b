import Countersign.Proofs.Json.Field
import Countersign.Rule.Document
import Countersign.Rule.Outcome

/-! The rules and catalogs that can be built. In whatever way a catalog came about, its rules have
distinct ids that are not empty, and every threshold fits the kind of value that its rule judges, so
no fact that a rule can read ever meets a threshold of another shape. Main statement:
`RuleCatalog.Built.sound`. -/

namespace Countersign

/-! ### Thresholds that fit -/

/-- Every bound is finite, and no number is asked to be above one bound and below a lower one. -/
structure Interval.IsOrdered (r : Interval) : Prop where
  finiteMin : ∀ low, r.min = some low → low.isFinite = true
  finiteMax : ∀ high, r.max = some high → high.isFinite = true
  ordered : ∀ low high, r.min = some low → r.max = some high → low.units ≤ high.units

theorem Interval.isValid_iff {r : Interval} : r.isValid = true ↔ r.IsOrdered := by
  obtain ⟨min, max, minIncluded, maxIncluded⟩ := r
  constructor
  · intro h
    simp only [isValid, Bool.and_eq_true, Option.all_eq_true] at h
    obtain ⟨⟨hmin, hmax⟩, hle⟩ := h
    refine ⟨hmin, hmax, ?_⟩
    rintro low high rfl rfl
    exact (Binary64.le_iff (hmin low rfl) (hmax high rfl)).1 hle
  · rintro ⟨hmin, hmax, hle⟩
    simp only [isValid, Bool.and_eq_true, Option.all_eq_true]
    refine ⟨⟨hmin, hmax⟩, ?_⟩
    split
    · exact (Binary64.le_iff (hmin _ rfl) (hmax _ rfl)).2 (hle _ _ rfl rfl)
    · rfl

namespace Threshold

/-- The threshold is of the shape for a kind of value and says something that can hold of one. -/
inductive Fits : Threshold → ValueKind → Prop where
  | range {kind : ValueKind} {r : Interval} (hkind : kind.isNumeric = true) (hr : r.IsOrdered) :
    Fits (.range r) kind
  | flag (b : Bool) : Fits (.flag b) .boolean
  | members {declared names : NameSet} (h : ∀ name ∈ names.keys, name ∈ declared.keys) :
    Fits (.members names) (.choice declared)

/-- The threshold and the reading are of one shape: they meet in an arm of `accepts` that compares
them. -/
inductive Judges : Threshold → Reading → Prop where
  | range (r : Interval) (x : Binary64) : Judges (.range r) (.number x)
  | flag (b c : Bool) : Judges (.flag b) (.flag c)
  | members (names : NameSet) (s : String) : Judges (.members names) (.name s)

/-- A threshold that fits a kind judges whatever that kind reads. -/
theorem Fits.judges {t : Threshold} {kind : ValueKind} (h : t.Fits kind) {fact : Fact}
    {reading : Reading} (hr : kind.reading? fact = some reading) : t.Judges reading := by
  cases h with
  | @range _ r hkind =>
    have hnumber : ∃ x, reading = .number x := by
      cases kind with
      | boolean => cases hkind
      | choice => cases hkind
      | int =>
        obtain ⟨x, -, rfl⟩ := Option.map_eq_some_iff.1 hr
        exact ⟨x, rfl⟩
      | float =>
        obtain ⟨x, -, rfl⟩ := Option.map_eq_some_iff.1 hr
        exact ⟨x, rfl⟩
      | percent =>
        obtain ⟨x, -, rfl⟩ := Option.map_eq_some_iff.1 hr
        exact ⟨x, rfl⟩
    obtain ⟨x, rfl⟩ := hnumber
    exact .range r x
  | flag b => cases fact <;> cases hr; exact .flag b _
  | members => cases fact <;> cases hr; exact .members _ _

end Threshold

namespace Rule

theorem thresholdError?_eq_none_iff {id : String} {kind : ValueKind} {severity : Severity}
    {t : Threshold} :
    thresholdError? id kind severity t = none ↔ severity ≠ .unknown ∧ t.Fits kind := by
  unfold thresholdError?
  by_cases hs : severity = .unknown
  · simp [hs]
  simp only [hs, ↓reduceIte, ne_eq, not_false_eq_true, true_and]
  split
  · exact iff_of_true rfl (.flag _)
  · simp only [Option.map_eq_none_iff, List.find?_eq_none, Bool.not_eq_true', Bool.not_eq_false,
      Table.contains_iff_mem_keys]
    exact ⟨.members, fun h => by cases h; assumption⟩
  · next r =>
    by_cases hkind : kind.isNumeric = true
    · by_cases hr : r.isValid = true
      · simpa [hkind, hr] using Threshold.Fits.range hkind (Interval.isValid_iff.1 hr)
      · simp only [hkind, hr, ↓reduceIte, reduceCtorEq, false_iff]
        rintro ⟨⟩
        exact hr (Interval.isValid_iff.2 ‹_›)
    · simp only [hkind, ↓reduceIte, reduceCtorEq, false_iff]
      rintro ⟨⟩
      exact hkind ‹_›
  · next hrange hflag hmembers =>
    refine iff_of_false (by simp) fun h => ?_
    cases h with
    | range => exact hrange _ rfl
    | flag b => exact hflag b rfl rfl
    | members => exact hmembers _ _ rfl rfl

/-- What every rule is known to be, whoever made it. -/
structure IsSound (r : Rule) : Prop where
  named : r.id ≠ ""
  keyed : ∀ row ∈ r.defaults.rows ++ r.custom.rows, row.1 ≠ .unknown
  fits : ∀ row ∈ r.defaults.rows ++ r.custom.rows, row.2.Fits r.kind

/-- A rule is made of its parts exactly if they are sound. -/
theorem make_eq_ok_iff {id : String} {factKey : Option String} {enabled : Bool} {kind : ValueKind}
    {defaults custom : ThresholdTable} {r : Rule} :
    make id factKey enabled kind defaults custom = .ok r ↔
      r = ⟨id, factKey.getD id, enabled, kind, defaults, custom⟩ ∧ r.IsSound := by
  unfold make
  constructor
  · intro h
    split at h
    · cases h
    · next hid =>
      split at h
      · cases h
      · next hnone =>
        cases h
        have hrows : ∀ row ∈ defaults.rows ++ custom.rows, row.1 ≠ .unknown ∧ row.2.Fits kind :=
          fun row hrow =>
            thresholdError?_eq_none_iff.1 (List.findSome?_eq_none_iff.1 hnone row hrow)
        exact ⟨rfl, by simpa using hid, fun row hrow => (hrows row hrow).1,
          fun row hrow => (hrows row hrow).2⟩
  · rintro ⟨rfl, hsound⟩
    have hid : ¬id.isEmpty = true := by simpa using hsound.named
    have hnone : (defaults.rows ++ custom.rows).findSome? (fun r =>
        thresholdError? id kind r.1 r.2) = none :=
      List.findSome?_eq_none_iff.2 fun row hrow =>
        thresholdError?_eq_none_iff.2 ⟨hsound.keyed row hrow, hsound.fits row hrow⟩
    rw [if_neg hid, hnone]

namespace IsSound

variable {r s : Rule}

theorem withEnabled (h : r.IsSound) (enabled : Bool) : (r.withEnabled enabled).IsSound :=
  ⟨h.named, h.keyed, h.fits⟩

theorem withThreshold (h : r.IsSound) {severity : Severity} {t : Threshold}
    (hs : r.withThreshold severity t = .ok s) : s.IsSound := by
  obtain ⟨hnone, rfl⟩ := withThreshold_eq_ok_iff.1 hs
  obtain ⟨hseverity, hfits⟩ := thresholdError?_eq_none_iff.1 hnone
  -- A row of the new tables is the one put in or one of those before.
  have hrow : ∀ row ∈ r.defaults.rows ++ (r.custom.insert severity t).rows,
      row = (severity, t) ∨ row ∈ r.defaults.rows ++ r.custom.rows := by
    intro row hrow
    rcases List.mem_append.1 hrow with hrow | hrow
    · exact .inr (List.mem_append_left _ hrow)
    · exact (Table.mem_insertRow hrow).imp_right (List.mem_append_right _)
  refine ⟨h.named, fun row hmem => ?_, fun row hmem => ?_⟩
  · rcases hrow row hmem with rfl | hold
    · exact hseverity
    · exact h.keyed row hold
  · rcases hrow row hmem with rfl | hold
    · exact hfits
    · exact h.fits row hold

/-- The threshold in effect for a severity fits the rule. -/
theorem fits_threshold? (h : r.IsSound) {severity : Severity} {t : Threshold}
    (ht : r.threshold? severity = some t) : t.Fits r.kind := by
  rcases Option.or_eq_some_iff.1 ht with hcustom | ⟨-, hdefault⟩
  · exact h.fits _ (List.mem_append_right _ (Table.get?_eq_some_iff.1 hcustom))
  · exact h.fits _ (List.mem_append_left _ (Table.get?_eq_some_iff.1 hdefault))

end IsSound

end Rule

/-! ### Rules out of documents -/

/-- A rule of a document is made of its parts; its kind is what a value in the document says. -/
theorem Rule.exists_make_of_ofJson? {j : Json} {r : Rule} (h : Rule.ofJson? j = some (.ok r)) :
    ∃ id factKey enabled kindJson kind defaults custom,
      ValueKind.ofJson? kindJson = some kind ∧
        Rule.make id factKey enabled kind defaults custom = .ok r := by
  obtain ⟨slots, -, h⟩ := Option.bind_eq_some_iff.1 h
  split at h
  · simp only [Option.bind_eq_bind, Option.bind_eq_some_iff, pure, Option.some.injEq] at h
    obtain ⟨id, -, factKey, -, enabled, -, kind, hkind, defaults, -, custom, -, h⟩ := h
    obtain ⟨kindJson, -, hkind⟩ := Option.bind_eq_some_iff.1 hkind
    exact ⟨id, factKey, enabled, kindJson, kind, defaults, custom, hkind, h⟩
  · cases h

namespace RuleCatalog

theorem mapM_id_eq_ok_iff {ε α : Type} {xs : List (Except ε α)} {ys : List α} :
    xs.mapM id = .ok ys ↔ xs = ys.map .ok := by
  induction xs generalizing ys with
  | nil => cases ys <;> simp [pure, Except.pure]
  | cons x xs ih =>
    cases x with
    | error e => cases ys <;> simp [List.mapM_cons, bind, Except.bind]
    | ok y =>
      cases ys with
      | nil =>
        cases h : xs.mapM id <;> simp [List.mapM_cons, bind, Except.bind, h, pure, Except.pure]
      | cons z zs =>
        rw [List.map_cons, List.cons.injEq, ← ih]
        cases h : xs.mapM id <;> simp [List.mapM_cons, bind, Except.bind, h, pure, Except.pure]

/-- A document is read as a catalog if each item of its list is read as the rule in that place. -/
theorem ofJson?_eq_ok_iff {j : Json} {c : RuleCatalog} :
    ofJson? j = some (.ok c) ↔ ∃ items, j.slots? ["rules"] = some [some (.array items)] ∧
      items.map Rule.ofJson? = (c.rules.map .ok).map some := by
  have hbind : ∀ results : List (Except RuleError Rule),
      (results.mapM id).bind ofRules = .ok c ↔ results = c.rules.map .ok := by
    intro results
    rw [← mapM_id_eq_ok_iff]
    cases results.mapM id with
    | error e => exact iff_of_false nofun nofun
    | ok rules => simpa [Except.bind, eq_comm] using ofRules_eq_ok_iff
  constructor
  · intro h
    obtain ⟨slots, hslots, h⟩ := Option.bind_eq_some_iff.1 h
    split at h
    · obtain ⟨results, hresults, h⟩ := Option.bind_eq_some_iff.1 h
      obtain rfl := (hbind results).1 (Option.some.inj h)
      obtain ⟨j, rfl, hlist⟩ := Option.bind_eq_some_iff.1 hresults
      obtain ⟨items, rfl, hitems⟩ := Json.list?_eq_some_iff.1 hlist
      exact ⟨items, hslots, hitems⟩
    · cases h
  · rintro ⟨items, hslots, hitems⟩
    have hlist : Json.list? Rule.ofJson? (.array items) = some (c.rules.map .ok) :=
      Json.list?_eq_some_iff.2 ⟨items, rfl, hitems⟩
    have hread := (hbind (c.rules.map .ok)).2 rfl
    simp only [ofJson?, hslots, Json.required?, hlist, hread, Option.bind_eq_bind,
      Option.bind_some, pure]

theorem ofText_eq_ok_iff {text : String} {c : RuleCatalog} :
    ofText text = .ok c ↔ ∃ j, Json.read? text.toList = some j ∧ ofJson? j = some (.ok c) := by
  rw [← Option.bind_eq_some_iff]
  unfold ofText
  split
  · next result hresult =>
    rw [hresult]
    cases result with
    | error e => exact iff_of_false nofun nofun
    | ok d => constructor <;> (intro h; cases h; rfl)
  · next hnone => exact iff_of_false nofun (by simp [hnone])

/-- Every rule of a catalog that is read stands in the document. -/
theorem exists_ofJson?_of_ofText {text : String} {c : RuleCatalog} (h : ofText text = .ok c)
    {r : Rule} (hr : r ∈ c.rules) : ∃ j, Rule.ofJson? j = some (.ok r) := by
  obtain ⟨j, -, hj⟩ := ofText_eq_ok_iff.1 h
  obtain ⟨items, -, hitems⟩ := ofJson?_eq_ok_iff.1 hj
  have hmem : some (.ok r) ∈ items.map Rule.ofJson? := by
    rw [hitems]
    exact List.mem_map_of_mem (List.mem_map_of_mem hr)
  obtain ⟨item, -, hitem⟩ := List.mem_map.1 hmem
  exact ⟨item, hitem⟩

/-! ### Edits -/

section

variable {c d : RuleCatalog} {id : String} {p : Rule → Prop}

/-- What switching a rule on or off keeps of each rule, it keeps of the catalog. -/
theorem forall_mem_of_withEnabled? {enabled : Bool} (h : c.withEnabled? id enabled = some d)
    (hedit : ∀ r, p r → p (r.withEnabled enabled)) (hc : ∀ r ∈ c.rules, p r) :
    ∀ r ∈ d.rules, p r := by
  obtain ⟨s, hs, rfl⟩ := Option.map_eq_some_iff.1 h
  intro r hr
  rcases mem_rules_replace hr with rfl | hr
  · exact hedit s (hc s (List.mem_of_find?_eq_some hs))
  · exact hc r hr

theorem forall_mem_of_withThreshold? {severity : Severity} {t : Threshold}
    (h : c.withThreshold? id severity t = some (.ok d))
    (hedit : ∀ r s, r.withThreshold severity t = .ok s → p r → p s) (hc : ∀ r ∈ c.rules, p r) :
    ∀ r ∈ d.rules, p r := by
  obtain ⟨s, hs, h⟩ := Option.map_eq_some_iff.1 h
  split at h
  · cases h
  · next s' hs' =>
    cases h
    intro r hr
    rcases mem_rules_replace hr with rfl | hr
    · exact hedit s r hs' (hc s (List.mem_of_find?_eq_some hs))
    · exact hc r hr

end

end RuleCatalog

/-! ### What can be built -/

mutual

/-- The rules that can be built: made from their parts, edited, or taken out of a catalog. -/
inductive Rule.Built : Rule → Prop where
  | make {id : String} {factKey : Option String} {enabled : Bool} {kind : ValueKind}
    {defaults custom : ThresholdTable} {r : Rule}
    (h : Rule.make id factKey enabled kind defaults custom = .ok r) : Rule.Built r
  | withEnabled {r : Rule} (hr : Rule.Built r) (enabled : Bool) : Rule.Built (r.withEnabled enabled)
  | withThreshold {r s : Rule} (hr : Rule.Built r) {severity : Severity} {t : Threshold}
    (h : r.withThreshold severity t = .ok s) : Rule.Built s
  | ofCatalog {c : RuleCatalog} (hc : RuleCatalog.Built c) {r : Rule} (h : r ∈ c.rules) :
    Rule.Built r

/-- The catalogs that can be built: of built rules, read from a document, or edited. -/
inductive RuleCatalog.Built : RuleCatalog → Prop where
  | ofRules {rules : List Rule} (hrules : ∀ r ∈ rules, Rule.Built r) {c : RuleCatalog}
    (h : RuleCatalog.ofRules rules = .ok c) : RuleCatalog.Built c
  | ofText {text : String} {c : RuleCatalog} (h : RuleCatalog.ofText text = .ok c) :
    RuleCatalog.Built c
  | withEnabled {c d : RuleCatalog} (hc : RuleCatalog.Built c) {id : String} {enabled : Bool}
    (h : c.withEnabled? id enabled = some d) : RuleCatalog.Built d
  | withThreshold {c d : RuleCatalog} (hc : RuleCatalog.Built c) {id : String}
    {severity : Severity} {t : Threshold} (h : c.withThreshold? id severity t = some (.ok d)) :
    RuleCatalog.Built d

end


mutual

theorem Rule.Built.isSound {r : Rule} : r.Built → r.IsSound
  | .make h => (Rule.make_eq_ok_iff.1 h).2
  | .withEnabled hr enabled => hr.isSound.withEnabled enabled
  | .withThreshold hr h => hr.isSound.withThreshold h
  | .ofCatalog hc h => hc.isSound _ h

theorem RuleCatalog.Built.isSound {c : RuleCatalog} : c.Built → ∀ r ∈ c.rules, r.IsSound
  | .ofRules hrules h => fun r hr => (hrules r (RuleCatalog.ofRules_eq_ok_iff.1 h ▸ hr)).isSound
  | .ofText h => fun r hr => by
    obtain ⟨j, hj⟩ := RuleCatalog.exists_ofJson?_of_ofText h hr
    obtain ⟨_, _, _, _, _, _, _, -, hmake⟩ := Rule.exists_make_of_ofJson? hj
    exact (Rule.make_eq_ok_iff.1 hmake).2
  | .withEnabled hc h =>
    RuleCatalog.forall_mem_of_withEnabled? h (fun _ hr => hr.withEnabled _) hc.isSound
  | .withThreshold hc h =>
    RuleCatalog.forall_mem_of_withThreshold? h (fun _ _ hs hr => hr.withThreshold hs) hc.isSound

end

/-- The rules of a catalog that can be built have distinct ids, none of them empty; no threshold is
for outcomes that could not be evaluated; every threshold fits the kind of its rule; and whatever a
rule reads in any facts, the threshold in effect for any severity is of the shape to judge it. -/
theorem RuleCatalog.Built.sound {c : RuleCatalog} (h : c.Built) :
    (c.rules.map (·.id)).Nodup ∧
      ∀ r ∈ c.rules, r.IsSound ∧
        ∀ (facts : Facts) (fact : Fact) (reading : Reading) (severity : Severity) (t : Threshold),
          facts.get? r.factKey = some fact → r.kind.reading? fact = some reading →
            r.threshold? severity = some t → t.Judges reading := by
  refine ⟨c.distinct, fun r hr => ⟨h.isSound r hr, ?_⟩⟩
  intro facts fact reading severity t _ hreading ht
  exact ((h.isSound r hr).fits_threshold? ht).judges hreading

/-- A rule on the slippage of a swap, which is safe from 0 percent on. -/
def slippageRule : Rule where
  id := "slippage"
  factKey := "swap.slippage"
  enabled := true
  kind := .percent none none
  defaults := Table.ofList [(.safe, .range (.atLeast .zero))]
  custom := .empty

/-- The catalog of the rule, after the signer has asked for danger from 10 percent on. -/
def slippageCatalog : RuleCatalog where
  rules := [{ slippageRule with
    custom := Table.ofList [(.danger, .range (.atLeast ⟨0x4024000000000000⟩))] }]
  distinct := by simp

theorem built_slippageRule : slippageRule.Built := by
  have hmake : Rule.make "slippage" (some "swap.slippage") true (.percent none none)
      slippageRule.defaults .empty = .ok slippageRule := by rfl
  exact .make hmake

theorem withThreshold?_slippage :
    RuleCatalog.withThreshold? ⟨[slippageRule], by simp⟩ "slippage" .danger
      (.range (.atLeast ⟨0x4024000000000000⟩)) = some (.ok slippageCatalog) := by
  rfl

theorem built_slippageCatalog : slippageCatalog.Built := by
  have hrules : ∀ r ∈ [slippageRule], r.Built := by simpa using built_slippageRule
  have hcatalog : RuleCatalog.Built ⟨[slippageRule], by simp⟩ :=
    .ofRules hrules (RuleCatalog.ofRules_eq_ok_iff.2 rfl)
  exact hcatalog.withThreshold withThreshold?_slippage

/-- The threshold in effect for danger judges a slippage of 7 percent. -/
theorem sound_slippageCatalog :
    slippageCatalog.Built ∧
      (Threshold.range (.atLeast ⟨0x4024000000000000⟩)).Judges (.number ⟨0x401C000000000000⟩) := by
  refine ⟨built_slippageCatalog, ?_⟩
  have hsound := built_slippageCatalog.sound.2 _ List.mem_cons_self
  exact hsound.2 (Table.ofList [("swap.slippage", .float ⟨0x401C000000000000⟩)])
    (.float ⟨0x401C000000000000⟩) _ .danger _ (by decide +kernel) (by decide +kernel)
    (by decide +kernel)

end Countersign
