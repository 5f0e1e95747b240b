import Countersign.Proofs.Binary64.Nearest
import Countersign.Proofs.Rule.Enabled
import Countersign.Proofs.Rule.Sound

/-! What a catalog finds in facts. `Rule.Judgement` says of one rule what its outcome is, by the
fact it reads and the merged table of its thresholds. A catalog that can be built has exactly these
outcomes, in the order of its rules. Main statement: `RuleCatalog.Built.evaluated`. -/

namespace Countersign

/-! ### Facts -/

namespace Fact

/-- The fact can be read as a kind of value: a number has to be finite, and whole where the kind
asks for integers. -/
inductive Fits : Fact → ValueKind → Prop where
  | bool (b : Bool) : Fits (.bool b) .boolean
  | text (s : String) (members : NameSet) : Fits (.text s) (.choice members)
  | int (i : Int64) {kind : ValueKind} (hkind : kind.isNumeric = true) : Fits (.int i) kind
  | float {x : Binary64} {kind : ValueKind} (hkind : kind.isNumeric = true)
    (hfinite : x.isFinite = true)
    (hwhole : ∀ min max, kind = .int min max → (Binary64.one : Int) ∣ x.units) :
    Fits (.float x) kind

/-- What a fact says, to whatever rule. An integer says the number nearest to it. -/
inductive Says : Fact → Reading → Prop where
  | flag (b : Bool) : Says (.bool b) (.flag b)
  | name (s : String) : Says (.text s) (.name s)
  | int (i : Int64) : Says (.int i) (.number (Binary64.ofInt i.toInt))
  | float {x : Binary64} (h : x.isFinite = true) : Says (.float x) (.number x)

variable {fact : Fact}

theorem Fits.exists_says {kind : ValueKind} (h : fact.Fits kind) : ∃ reading, fact.Says reading := by
  cases h with
  | bool b => exact ⟨_, .flag b⟩
  | text s => exact ⟨_, .name s⟩
  | int i => exact ⟨_, .int i⟩
  | float _ hfinite => exact ⟨_, .float hfinite⟩

theorem number?_float_eq_some_iff {x y : Binary64} :
    number? (.float x) = some y ↔ x.isFinite = true ∧ x = y := by
  simp [number?]

theorem wholeNumber?_float_eq_some_iff {x y : Binary64} :
    wholeNumber? (.float x) = some y ↔ x.isWhole = true ∧ x = y := by
  simp [wholeNumber?]

theorem Says.isFinite {x : Binary64} (h : fact.Says (.number x)) : x.isFinite = true := by
  cases h with
  | int i =>
    have hlt := i.toInt_lt
    have hle := i.le_toInt
    exact Binary64.isFinite_ofInt (by rw [UInt64.size]; omega)
  | float h => exact h

end Fact

namespace ValueKind

variable {kind : ValueKind} {fact : Fact}

theorem reading?_float_eq_some_iff {x : Binary64} {reading : Reading} :
    kind.reading? (.float x) = some reading ↔
      kind.isNumeric = true ∧ x.isFinite = true ∧
        (∀ min max, kind = .int min max → (Binary64.one : Int) ∣ x.units) ∧
        .number x = reading := by
  cases kind with
  | boolean | choice => exact ⟨nofun, fun h => nomatch h.1⟩
  | int min max =>
    change (Fact.wholeNumber? (.float x)).map .number = some reading ↔ _
    rw [Option.map_eq_some_iff]
    constructor
    · rintro ⟨_, hread, rfl⟩
      obtain ⟨hx, rfl⟩ := Fact.wholeNumber?_float_eq_some_iff.1 hread
      obtain ⟨hfinite, hwhole⟩ := Binary64.isWhole_iff.1 hx
      exact ⟨rfl, hfinite, fun _ _ _ => hwhole, rfl⟩
    · rintro ⟨-, hfinite, hwhole, rfl⟩
      have hx := Binary64.isWhole_iff.2 ⟨hfinite, hwhole min max rfl⟩
      exact ⟨x, Fact.wholeNumber?_float_eq_some_iff.2 ⟨hx, rfl⟩, rfl⟩
  | float | percent =>
    change (Fact.number? (.float x)).map .number = some reading ↔ _
    rw [Option.map_eq_some_iff]
    constructor
    · rintro ⟨_, hread, rfl⟩
      obtain ⟨hfinite, rfl⟩ := Fact.number?_float_eq_some_iff.1 hread
      exact ⟨rfl, hfinite, nofun, rfl⟩
    · rintro ⟨-, hfinite, -, rfl⟩
      exact ⟨x, Fact.number?_float_eq_some_iff.2 ⟨hfinite, rfl⟩, rfl⟩

theorem reading?_eq_some_iff {reading : Reading} :
    kind.reading? fact = some reading ↔ fact.Fits kind ∧ fact.Says reading := by
  constructor
  · intro h
    cases fact with
    | bool b =>
      cases kind <;> cases h
      exact ⟨.bool b, .flag b⟩
    | text s =>
      cases kind <;> cases h
      exact ⟨.text s _, .name s⟩
    | int i =>
      cases kind <;> cases h <;> exact ⟨.int i rfl, .int i⟩
    | float x =>
      obtain ⟨hkind, hfinite, hwhole, rfl⟩ := reading?_float_eq_some_iff.1 h
      exact ⟨.float hkind hfinite hwhole, .float hfinite⟩
  · rintro ⟨hfits, hsays⟩
    cases hfits with
    | bool | text =>
      cases hsays
      rfl
    | int i hkind =>
      cases hsays
      cases kind <;> first | rfl | cases hkind
    | float hkind hfinite hwhole =>
      cases hsays
      exact reading?_float_eq_some_iff.2 ⟨hkind, hfinite, hwhole, rfl⟩

theorem exists_reading?_iff : (∃ reading, kind.reading? fact = some reading) ↔ fact.Fits kind := by
  constructor
  · rintro ⟨reading, hread⟩
    exact (reading?_eq_some_iff.1 hread).1
  · intro hfits
    obtain ⟨reading, hsays⟩ := hfits.exists_says
    exact ⟨reading, reading?_eq_some_iff.2 ⟨hfits, hsays⟩⟩

theorem reading?_eq_none_iff : kind.reading? fact = none ↔ ¬fact.Fits kind := by
  rw [← exists_reading?_iff, Option.eq_none_iff_forall_ne_some, not_exists]

end ValueKind

/-! ### Thresholds -/

/-- A number lies within the bounds of an interval. -/
structure Interval.Covers (r : Interval) (x : Binary64) : Prop where
  aboveMin : ∀ low, r.min = some low →
    low.units < x.units ∨ r.minIncluded = true ∧ low.units = x.units
  belowMax : ∀ high, r.max = some high →
    x.units < high.units ∨ r.maxIncluded = true ∧ x.units = high.units

theorem Interval.contains_iff {r : Interval} {x : Binary64} (hr : r.IsOrdered)
    (hx : x.isFinite = true) : r.contains x = true ↔ r.Covers x := by
  have hmin : r.aboveMin x = true ↔ ∀ low, r.min = some low →
      low.units < x.units ∨ r.minIncluded = true ∧ low.units = x.units := by
    unfold aboveMin
    cases hlow : r.min with
    | none => simp
    | some low =>
      cases hincluded : r.minIncluded with
      | true => simp [Binary64.le_iff (hr.finiteMin low hlow) hx, Int.le_iff_lt_or_eq]
      | false => simp [Binary64.lt_iff (hr.finiteMin low hlow) hx]
  have hmax : r.belowMax x = true ↔ ∀ high, r.max = some high →
      x.units < high.units ∨ r.maxIncluded = true ∧ x.units = high.units := by
    unfold belowMax
    cases hhigh : r.max with
    | none => simp
    | some high =>
      cases hincluded : r.maxIncluded with
      | true => simp [Binary64.le_iff hx (hr.finiteMax high hhigh), Int.le_iff_lt_or_eq]
      | false => simp [Binary64.lt_iff hx (hr.finiteMax high hhigh)]
  rw [contains, Bool.and_eq_true, hmin, hmax]
  exact ⟨fun ⟨habove, hbelow⟩ => ⟨habove, hbelow⟩, fun h => ⟨h.aboveMin, h.belowMax⟩⟩

namespace Threshold

/-- The threshold accepts what the fact says. -/
inductive Admits : Threshold → Fact → Prop where
  | range {r : Interval} {fact : Fact} {x : Binary64} (hx : fact.Says (.number x))
    (h : r.Covers x) : Admits (.range r) fact
  | flag (b : Bool) : Admits (.flag b) (.bool b)
  | members {names : NameSet} {s : String} (h : s ∈ names.keys) : Admits (.members names) (.text s)

theorem accepts_iff {t : Threshold} {kind : ValueKind} {fact : Fact} {reading : Reading}
    (ht : t.Fits kind) (hread : kind.reading? fact = some reading) :
    t.accepts reading = true ↔ t.Admits fact := by
  have hjudges := ht.judges hread
  have hsays := (ValueKind.reading?_eq_some_iff.1 hread).2
  cases hjudges with
  | range r x =>
    cases ht with
    | range _ hr =>
      rw [accepts, Interval.contains_iff hr hsays.isFinite]
      constructor
      · exact fun h => .range hsays h
      · rintro ⟨hother, h⟩
        cases hsays <;> cases hother <;> exact h
  | flag b c =>
    cases hsays
    rw [accepts, decide_eq_true_eq]
    constructor
    · rintro rfl
      exact .flag b
    · rintro ⟨⟩
      rfl
  | members names s =>
    cases hsays
    rw [accepts, Table.contains_iff_mem_keys]
    constructor
    · exact fun h => .members h
    · rintro ⟨⟩
      assumption

end Threshold

/-! ### Rules -/

namespace Rule

/-- The threshold that the rule has for a severity, once the signer's own are merged in, accepts the
fact. -/
def Accepts (r : Rule) (severity : Severity) (fact : Fact) : Prop :=
  ∃ t, r.thresholds.get? severity = some t ∧ t.Admits fact

/-- What a rule finds in a fact that fits it. -/
inductive Rates (r : Rule) (fact : Fact) : Severity → Prop where
  | gravest {severity : Severity} (h : r.Accepts severity fact)
    (hmax : ∀ other, r.Accepts other fact → other ≤ severity) : Rates r fact severity
  | otherwise (hsafe : r.thresholds.contains .safe = true)
    (hnone : ∀ severity, ¬r.Accepts severity fact) : Rates r fact .safe

/-- What a rule says about facts: a severity, and the fact that it comes from. -/
inductive Judgement (r : Rule) (facts : Facts) : Severity → Option Fact → Prop where
  | missing (h : facts.get? r.factKey = none) : Judgement r facts .unknown none
  | unfit {fact : Fact} (h : facts.get? r.factKey = some fact) (hfits : ¬fact.Fits r.kind) :
    Judgement r facts .unknown (some fact)
  | rated {fact : Fact} (h : facts.get? r.factKey = some fact) (hfits : fact.Fits r.kind)
    {severity : Severity} (hrates : r.Rates fact severity) :
    Judgement r facts severity (some fact)

variable {r : Rule} {facts : Facts} {fact : Fact} {severity : Severity}

theorem IsSound.threshold?_unknown (h : r.IsSound) : r.threshold? .unknown = none := by
  rw [Option.eq_none_iff_forall_ne_some]
  intro t ht
  rcases Option.or_eq_some_iff.1 ht with hcustom | ⟨-, hdefault⟩
  · exact h.keyed _ (List.mem_append_right _ (Table.get?_eq_some_iff.1 hcustom)) rfl
  · exact h.keyed _ (List.mem_append_left _ (Table.get?_eq_some_iff.1 hdefault)) rfl

theorem Accepts.ne_unknown (hr : r.IsSound) (h : r.Accepts severity fact) : severity ≠ .unknown := by
  rintro rfl
  obtain ⟨t, ht, -⟩ := h
  rw [get?_thresholds, hr.threshold?_unknown] at ht
  cases ht

theorem Rates.ne_unknown (hr : r.IsSound) (h : r.Rates fact severity) : severity ≠ .unknown := by
  cases h with
  | gravest h => exact h.ne_unknown hr
  | otherwise => decide

section

variable {reading : Reading} (hr : r.IsSound) (hread : r.kind.reading? fact = some reading)
include hr hread

theorem any_accepts_iff :
    (r.threshold? severity).any (·.accepts reading) = true ↔ r.Accepts severity fact := by
  rw [Option.any_eq_true, Accepts]
  simp only [get?_thresholds]
  constructor
  · rintro ⟨t, ht, h⟩
    exact ⟨t, ht, (Threshold.accepts_iff (hr.fits_threshold? ht) hread).1 h⟩
  · rintro ⟨t, ht, h⟩
    exact ⟨t, ht, (Threshold.accepts_iff (hr.fits_threshold? ht) hread).2 h⟩

theorem find?_accepts_eq_none_iff :
    (Severity.evaluationOrder.find? fun s => (r.threshold? s).any (·.accepts reading)) = none ↔
      ∀ s, ¬r.Accepts s fact := by
  simp only [List.find?_eq_none, any_accepts_iff hr hread, Severity.mem_evaluationOrder]
  exact ⟨fun h s hs => h s (hs.ne_unknown hr) hs, fun h s _ => h s⟩

theorem severity?_eq_some_iff : r.severity? reading = some severity ↔ r.Rates fact severity := by
  rw [severity?, Option.or_eq_some_iff, find?_accepts_eq_none_iff hr hread,
    Severity.find?_evaluationOrder_eq_some_iff]
  simp only [any_accepts_iff hr hread, Option.map_eq_some_iff]
  constructor
  · rintro (⟨-, h, hmax⟩ | ⟨hnone, t, ht, rfl⟩)
    · exact .gravest h fun other hother => hmax other (hother.ne_unknown hr) hother
    · refine .otherwise ?_ hnone
      rw [Table.contains_eq_isSome_get?, get?_thresholds, ht]
      rfl
  · intro h
    cases h with
    | gravest h hmax => exact .inl ⟨h.ne_unknown hr, h, fun other _ hother => hmax other hother⟩
    | otherwise hsafe hnone =>
      rw [Table.contains_eq_isSome_get?, get?_thresholds, Option.isSome_iff_exists] at hsafe
      obtain ⟨t, ht⟩ := hsafe
      exact .inr ⟨hnone, t, ht, rfl⟩

theorem severity?_eq_none_iff : r.severity? reading = none ↔
    r.thresholds.contains .safe = false ∧ ∀ s, ¬r.Accepts s fact := by
  rw [severity?, Option.or_eq_none_iff, find?_accepts_eq_none_iff hr hread, and_comm,
    Option.map_eq_none_iff, Table.contains_eq_isSome_get?, get?_thresholds, Option.isSome_eq_false_iff,
    Option.isNone_iff_eq_none]

end

theorem evaluate?_eq_some_iff (hr : r.IsSound) {o : Outcome} :
    r.evaluate? facts = some o ↔
      o.ruleId = r.id ∧ o.enabled = r.enabled ∧ r.Judgement facts o.severity o.value := by
  constructor
  · intro h
    refine ⟨(ruleId_of_evaluate? h).1, (ruleId_of_evaluate? h).2, ?_⟩
    unfold evaluate? at h
    split at h
    · next hnone =>
      cases h
      exact .missing hnone
    · next fact hfact =>
      split at h
      · next hread =>
        cases h
        exact .unfit hfact (ValueKind.reading?_eq_none_iff.1 hread)
      · next reading hread =>
        obtain ⟨s, hs, rfl⟩ := Option.map_eq_some_iff.1 h
        exact .rated hfact (ValueKind.exists_reading?_iff.1 ⟨reading, hread⟩)
          ((severity?_eq_some_iff hr hread).1 hs)
  · obtain ⟨id, severity, enabled, value⟩ := o
    rintro ⟨rfl, rfl, h⟩
    cases h with
    | missing h => simp [evaluate?, h, outcome]
    | unfit h hfits => simp [evaluate?, h, ValueKind.reading?_eq_none_iff.2 hfits, outcome]
    | rated h hfits hrates =>
      obtain ⟨reading, hread⟩ := ValueKind.exists_reading?_iff.2 hfits
      simp [evaluate?, h, hread, (severity?_eq_some_iff hr hread).2 hrates, outcome]

theorem evaluate?_eq_none_iff (hr : r.IsSound) :
    r.evaluate? facts = none ↔ ∃ fact, facts.get? r.factKey = some fact ∧ fact.Fits r.kind ∧
      r.thresholds.contains .safe = false ∧ ∀ severity, ¬r.Accepts severity fact := by
  constructor
  · intro h
    unfold evaluate? at h
    split at h
    · cases h
    · next fact hfact =>
      split at h
      · cases h
      · next reading hread =>
        exact ⟨fact, hfact, ValueKind.exists_reading?_iff.1 ⟨reading, hread⟩,
          (severity?_eq_none_iff hr hread).1 (Option.map_eq_none_iff.1 h)⟩
  · rintro ⟨fact, hfact, hfits, hnone⟩
    obtain ⟨reading, hread⟩ := ValueKind.exists_reading?_iff.2 hfits
    simp [evaluate?, hfact, hread, (severity?_eq_none_iff hr hread).2 hnone]

theorem Judgement.unknown_iff (hr : r.IsSound) {value : Option Fact}
    (h : r.Judgement facts severity value) :
    severity = .unknown ↔ ∀ fact, facts.get? r.factKey = some fact → ¬fact.Fits r.kind := by
  cases h with
  | missing hnone => simp [hnone]
  | unfit hfact hfits => simp [hfact, hfits]
  | rated hfact hfits hrates => simp [hfact, hfits, hrates.ne_unknown hr]

/-- A rule reads no fact but its own. -/
theorem evaluate?_congr {others : Facts} (h : others.get? r.factKey = facts.get? r.factKey) :
    r.evaluate? others = r.evaluate? facts := by
  simp only [evaluate?, h]

end Rule

/-! ### Catalogs -/

namespace RuleCatalog

/-- What a catalog finds in facts, by what each of its rules says about them. -/
structure Evaluated (c : RuleCatalog) (facts : Facts) (outcomes : List Outcome) : Prop where
  inOrder : (outcomes.map (·.ruleId)).Sublist (c.rules.map (·.id))
  distinct : (outcomes.map (·.ruleId)).Nodup
  judged : ∀ r ∈ c.rules, ∀ o, o.ruleId = r.id →
    (o ∈ outcomes ↔ o.enabled = r.enabled ∧ r.Judgement facts o.severity o.value)
  unknown : ∀ r ∈ c.rules, (∃ o ∈ outcomes, o.ruleId = r.id ∧ o.severity = .unknown) ↔
    ∀ fact, facts.get? r.factKey = some fact → ¬fact.Fits r.kind
  silent : ∀ r ∈ c.rules, (∀ o ∈ outcomes, o.ruleId ≠ r.id) ↔
    ∃ fact, facts.get? r.factKey = some fact ∧ fact.Fits r.kind ∧
      r.thresholds.contains .safe = false ∧ ∀ severity, ¬r.Accepts severity fact

variable {c : RuleCatalog} {facts : Facts}

theorem mem_evaluate_iff {r : Rule} (hr : r ∈ c.rules) {o : Outcome} (hid : o.ruleId = r.id) :
    o ∈ c.evaluate facts ↔ r.evaluate? facts = some o := by
  rw [evaluate, List.mem_filterMap]
  constructor
  · rintro ⟨s, hs, ho⟩
    have hsame : s.id = r.id := (Rule.ruleId_of_evaluate? ho).1.symm.trans hid
    rwa [List.inj_on_of_nodup_map c.distinct hs hr hsame] at ho
  · exact fun ho => ⟨r, hr, ho⟩

theorem evaluated_of_isSound (hsound : ∀ r ∈ c.rules, r.IsSound) (facts : Facts) :
    c.Evaluated facts (c.evaluate facts) where
  inOrder := c.sublist_evaluate facts
  distinct := c.distinct_evaluate facts
  judged r hr o hid := by
    rw [mem_evaluate_iff hr hid, Rule.evaluate?_eq_some_iff (hsound r hr)]
    simp [hid]
  unknown r hr := by
    constructor
    · rintro ⟨o, ho, hid, hunknown⟩
      obtain ⟨-, -, hjudged⟩ :=
        (Rule.evaluate?_eq_some_iff (hsound r hr)).1 ((mem_evaluate_iff hr hid).1 ho)
      exact (hjudged.unknown_iff (hsound r hr)).1 hunknown
    · intro hunfit
      cases ho : r.evaluate? facts with
      | none =>
        obtain ⟨fact, hfact, hfits, -⟩ := (Rule.evaluate?_eq_none_iff (hsound r hr)).1 ho
        exact absurd hfits (hunfit fact hfact)
      | some o =>
        obtain ⟨hid, -, hjudged⟩ := (Rule.evaluate?_eq_some_iff (hsound r hr)).1 ho
        exact ⟨o, (mem_evaluate_iff hr hid).2 ho, hid,
          (hjudged.unknown_iff (hsound r hr)).2 hunfit⟩
  silent r hr := by
    rw [← Rule.evaluate?_eq_none_iff (hsound r hr), Option.eq_none_iff_forall_ne_some]
    constructor
    · intro h o ho
      have hid := (Rule.ruleId_of_evaluate? ho).1
      exact h o ((mem_evaluate_iff hr hid).2 ho) hid
    · intro h o ho hid
      exact h o ((mem_evaluate_iff hr hid).1 ho)

/-- A catalog that can be built has the outcomes that its rules give by the facts they read. Where
catalogs differ only in the rules that are switched on, their outcomes differ only in whether they
are enabled. The outcome of a rule depends on no fact but its own. -/
theorem Built.evaluated (h : c.Built) (facts : Facts) :
    c.Evaluated facts (c.evaluate facts) ∧
      (∀ d : RuleCatalog, d.rules.map (·.withEnabled true) = c.rules.map (·.withEnabled true) →
        (d.evaluate facts).map (fun o => { o with enabled := true }) =
          (c.evaluate facts).map fun o => { o with enabled := true }) ∧
      ∀ r ∈ c.rules, ∀ others : Facts, others.get? r.factKey = facts.get? r.factKey →
        ∀ o, o.ruleId = r.id → (o ∈ c.evaluate others ↔ o ∈ c.evaluate facts) := by
  refine ⟨evaluated_of_isSound h.isSound facts, fun d hd => ?_, fun r hr others hothers o hid => ?_⟩
  · rw [map_enabled_evaluate, hd, map_enabled_evaluate]
  · rw [mem_evaluate_iff hr hid, mem_evaluate_iff hr hid, Rule.evaluate?_congr hothers]

end RuleCatalog

/-- Facts about a swap by its slippage. -/
def slippageFacts (percent : Binary64) : Facts :=
  Table.ofList [("swap.route", .text "direct"), ("swap.slippage", .float percent)]

/-- The rule is safe from 0 percent on and finds a danger in 12 percent, also when it is switched
off and whatever the route is. -/
theorem evaluated_slippage :
    let facts := slippageFacts ⟨0x4028000000000000⟩
    let danger : Outcome := ⟨"slippage", .danger, true, some (.float ⟨0x4028000000000000⟩)⟩
    slippageCatalog.Built ∧
      (∀ r ∈ slippageCatalog.rules, r.Judgement facts danger.severity danger.value) ∧
      (∃ d : RuleCatalog, d.rules ≠ slippageCatalog.rules ∧
        (d.evaluate facts).map (fun o => { o with enabled := true }) = [danger]) ∧
      danger ∈ slippageCatalog.evaluate (facts.erase "swap.route") := by
  intro facts danger
  obtain ⟨hevaluated, hflags, hothers⟩ := built_slippageCatalog.evaluated facts
  have hevaluate : slippageCatalog.evaluate facts = [danger] := by decide +kernel
  have hmem : danger ∈ slippageCatalog.evaluate facts := by rw [hevaluate]; exact List.mem_cons_self
  have hid : ∀ r ∈ slippageCatalog.rules, danger.ruleId = r.id := by decide +kernel
  refine ⟨built_slippageCatalog, fun r hr => ?_, ?_, ?_⟩
  · exact ((hevaluated.judged r hr danger (hid r hr)).1 hmem).2
  · refine ⟨⟨slippageCatalog.rules.map (·.withEnabled false), by decide +kernel⟩,
      by decide +kernel, ?_⟩
    rw [hflags _ (by decide +kernel), hevaluate]
    rfl
  · exact (hothers _ List.mem_cons_self _ (by decide +kernel) _ rfl).2 hmem

end Countersign
