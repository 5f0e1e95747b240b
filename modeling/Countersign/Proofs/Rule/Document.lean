import Countersign.Proofs.Json.Number
import Countersign.Proofs.Json.Pretty
import Countersign.Proofs.Rule.Sound

/-! Catalogs read back from the documents that are written of them. Each part of a rule is read as
itself exactly if its floating-point numbers are; everything else in it always is. Main statement:
`RuleCatalog.FromDocument.ofText_text_iff`. -/

namespace Countersign

/-- The number is read as itself where it is written in a document. -/
def Binary64.ReadsBack (x : Binary64) : Prop := (documentLayout.numeral x).toBinary64 = x

instance : DecidablePred Binary64.ReadsBack := fun _ => inferInstanceAs (Decidable (_ = _))

/-! ### The floating-point numbers of a catalog -/

def ValueKind.numbers : ValueKind → List Binary64
  | float min max | percent min max => min.toList ++ max.toList
  | boolean | int .. | choice _ => []

def Threshold.numbers : Threshold → List Binary64
  | range r => r.min.toList ++ r.max.toList
  | flag _ | members _ => []

def Rule.numbers (r : Rule) : List Binary64 :=
  r.kind.numbers ++ (r.defaults.rows ++ r.custom.rows).flatMap fun row => row.2.numbers

def RuleCatalog.numbers (c : RuleCatalog) : List Binary64 := c.rules.flatMap Rule.numbers

theorem Threshold.Fits.finite {t : Threshold} {kind : ValueKind} (h : t.Fits kind) :
    ∀ x ∈ t.numbers, x.isFinite = true := by
  intro x hx
  cases h with
  | range _ hr =>
    rcases List.mem_append.1 hx with hx | hx
    · exact hr.finiteMin x (Option.mem_toList.1 hx)
    · exact hr.finiteMax x (Option.mem_toList.1 hx)
  | flag => cases hx
  | members => cases hx

/-! ### Bounds and names -/

section

variable {x : Binary64} {b : Option Binary64}

theorem binary64?_numeral (hx : x.isFinite = true) :
    Json.binary64? (.number (documentLayout.numeral x)) = some x ↔ x.ReadsBack := by
  show (if (documentLayout.numeral x).toBinary64.isFinite = true then _ else none) = some x ↔ _
  constructor
  · intro h
    split at h
    · exact Option.some.inj h
    · cases h
  · intro h
    rw [show (documentLayout.numeral x).toBinary64 = x from h, if_pos hx]

theorem Json.isFinite_of_binary64? {j : Json} (h : j.binary64? = some x) : x.isFinite = true := by
  unfold Json.binary64? at h
  split at h
  · split at h
    · next hfinite => cases h; exact hfinite
    · cases h
  · cases h

theorem Json.eq_some_of_optional? {read : Json → Option α} {j : Json} {a : α}
    (h : Json.optional? read j = some (some a)) : read j = some a := by
  unfold Json.optional? at h
  split at h
  · cases h
  · simpa using h

theorem boundJson_some (hx : x.isFinite = true) :
    boundJson (some x) = .number (documentLayout.numeral x) := if_pos hx

theorem optional?_boundJson (hb : ∀ x ∈ b.toList, x.isFinite = true) :
    Json.optional? Json.binary64? (boundJson b) = some b ↔ ∀ x ∈ b.toList, x.ReadsBack := by
  cases b with
  | none => simp [boundJson, Json.optional?]
  | some x =>
    have hx : x.isFinite = true := hb x List.mem_cons_self
    rw [boundJson_some hx, Json.optional?, Option.map_eq_some_iff]
    · simpa using binary64?_numeral hx
    · simp

theorem isReadable_boundJson (hb : ∀ x ∈ b.toList, x.isFinite = true)
    (h : ∀ x ∈ b.toList, x.ReadsBack) : (boundJson b).isReadable = true := by
  cases b with
  | none => rfl
  | some x =>
    have hx : x.isFinite = true := hb x List.mem_cons_self
    rw [boundJson_some hx, Json.isReadable, h x List.mem_cons_self, hx]

theorem isProper_boundJson (b : Option Binary64) : (boundJson b).IsProper := by
  unfold boundJson
  split
  · trivial
  · split <;> trivial

theorem depth_boundJson (b : Option Binary64) : (boundJson b).depth = 0 := by
  unfold boundJson
  split
  · rfl
  · split <;> rfl

theorem isProper_integerJson (i : Option Int64) : (integerJson i).IsProper := by
  cases i <;> trivial

theorem depth_integerJson (i : Option Int64) : (integerJson i).depth = 0 := by
  cases i <;> rfl

theorem optional?_integerJson (i : Option Int64) :
    Json.optional? Json.int64? (integerJson i) = some i := by
  cases i with
  | none => rfl
  | some i =>
    show (Json.int64? (Json.ofInt i.toInt)).map some = _
    rw [Json.int64?_ofInt, Option.map_some]

theorem isReadable_integerJson (i : Option Int64) : (integerJson i).isReadable = true := by
  cases i with
  | none => rfl
  | some i =>
    refine Numeral.isFinite_toBinary64_ofInt ?_
    have := i.le_toInt
    have := i.toInt_lt
    simp only [UInt64.size]
    omega

theorem list?_namesJson (s : NameSet) : Json.list? Json.string? (namesJson s) = some s.keys :=
  Json.list?_eq_some_iff.2 ⟨_, rfl, by simp [Function.comp_def]⟩

theorem isReadable_namesJson (s : NameSet) : (namesJson s).isReadable = true := by
  refine Json.areReadable_iff.2 fun j hj => ?_
  obtain ⟨name, -, rfl⟩ := List.mem_map.1 hj
  simp [Json.ofString, Json.isReadable, Json.Written.decode_encode]

theorem isProper_namesJson (s : NameSet) : (namesJson s).IsProper := by
  refine Json.areProper_iff.2 fun j hj => ?_
  obtain ⟨name, -, rfl⟩ := List.mem_map.1 hj
  exact Json.Written.isProper_encode name

theorem depth_namesJson (s : NameSet) : (namesJson s).depth ≤ 1 := by
  refine Nat.succ_le_succ (Json.depthItems_le_iff.2 fun j hj => ?_)
  obtain ⟨name, -, rfl⟩ := List.mem_map.1 hj
  exact Nat.le_refl 0

end

/-! ### Kinds -/

namespace ValueKind

theorem ofJson?_object (members : List (Json.Written × Json)) :
    ofJson? (.object members) =
      if (Json.object members).depth ≤ maxDepth && (Json.object members).isReadable then do
        let named ← (Json.object members).members?
        let tag ← Json.required? Json.string? (← Json.only? "type" named)
        ofFields? tag (.object (members.filter fun m => m.1.decode ≠ some "type"))
      else none := rfl

/-- The tag of a kind and the other fields are told apart, and everything in those is looked at. -/
theorem ofJson?_ofFields_eq_some_iff {tag : String} {fields : List (String × Json)}
    (hnames : ∀ f ∈ fields, f.1 ≠ "type") (hdepth : ∀ f ∈ fields, f.2.depth ≤ 1)
    {kind : ValueKind} :
    ofJson? (Json.ofFields (("type", Json.ofString tag) :: fields)) = some kind ↔
      (∀ f ∈ fields, f.2.isReadable = true) ∧ ofFields? tag (Json.ofFields fields) = some kind := by
  have hdeep : (Json.ofFields (("type", Json.ofString tag) :: fields)).depth ≤ 1 + 1 :=
    Json.depth_ofFields_le_iff.2 (List.forall_mem_cons.2 ⟨Nat.zero_le 1, hdepth⟩)
  have hreadable : (Json.ofFields (("type", Json.ofString tag) :: fields)).isReadable = true ↔
      ∀ f ∈ fields, f.2.isReadable = true := by
    rw [Json.isReadable_ofFields_iff, List.forall_mem_cons]
    exact and_iff_right (by simp [Json.ofString, Json.isReadable, Json.Written.decode_encode])
  have honly : Json.only? "type" (("type", Json.ofString tag) :: fields) =
      some (some (Json.ofString tag)) := by
    have hrest : fields.filter (fun f => f.1 = "type") = [] := by simpa using hnames
    simp [Json.only?, hrest]
  have hrest : ((("type", Json.ofString tag) :: fields).map fun f =>
      (Json.Written.encode f.1, f.2)).filter (fun m => m.1.decode ≠ some "type") =
      fields.map fun f => (Json.Written.encode f.1, f.2) := by
    rw [List.filter_map, List.filter_cons_of_neg (by simp [Json.Written.decode_encode]),
      List.filter_eq_self.2]
    intro f hf
    simpa [Json.Written.decode_encode] using hnames f hf
  have hmembers := Json.members?_ofFields (("type", Json.ofString tag) :: fields)
  -- If a field is not readable, the kind is refused before its tag is looked at.
  simp only [Json.ofFields] at hdeep hreadable hmembers ⊢
  rw [ofJson?_object]
  by_cases h : ∀ f ∈ fields, f.2.isReadable = true
  · rw [if_pos (Bool.and_eq_true_iff.2
      ⟨decide_eq_true (Nat.le_trans hdeep (by decide)), hreadable.2 h⟩)]
    simp only [hmembers, Option.bind_eq_bind, Option.bind_some, honly, hrest, Json.required?,
      Json.string?_ofString]
    exact (and_iff_right h).symm
  · rw [if_neg fun hboth => h (hreadable.1 (Bool.and_eq_true_iff.1 hboth).2)]
    exact iff_of_false (by simp) fun hread => h hread.1

theorem slots?_bounds (min max : Json) :
    (Json.ofFields [("min", min), ("max", max)]).slots? ["min", "max"] =
      some [some min, some max] :=
  Json.slots?_ofFields_self [("min", min), ("max", max)] (by simp)

/-- Both bounds are looked at as a part of the kind and are read as themselves, if either is. -/
theorem bounds_iff {min max : Option Binary64}
    (hfinite : ∀ x ∈ min.toList ++ max.toList, x.isFinite = true) :
    (∀ f ∈ [("min", boundJson min), ("max", boundJson max)], f.2.isReadable = true) ∧
        Json.optional? Json.binary64? (boundJson min) = some min ∧
        Json.optional? Json.binary64? (boundJson max) = some max ↔
      ∀ x ∈ min.toList ++ max.toList, x.ReadsBack := by
  obtain ⟨hmin, hmax⟩ := List.forall_mem_append.1 hfinite
  rw [optional?_boundJson hmin, optional?_boundJson hmax, List.forall_mem_append]
  refine and_iff_right_of_imp fun ⟨hreadmin, hreadmax⟩ => ?_
  simp [isReadable_boundJson hmin hreadmin, isReadable_boundJson hmax hreadmax]

theorem ofJson?_json {kind : ValueKind} (hfinite : ∀ x ∈ kind.numbers, x.isFinite = true) :
    ofJson? kind.json = some kind ↔ ∀ x ∈ kind.numbers, x.ReadsBack := by
  cases kind with
  | boolean =>
    refine iff_of_true ?_ nofun
    exact (ofJson?_ofFields_eq_some_iff (by simp) (by simp)).2 ⟨by simp, rfl⟩
  | int min max =>
    refine iff_of_true ?_ nofun
    refine (ofJson?_ofFields_eq_some_iff (by simp) (by simp [depth_integerJson])).2 ⟨?_, ?_⟩
    · simp [isReadable_integerJson]
    · simp [ofFields?, text, slots?_bounds, Json.default?, optional?_integerJson]
  | float min max =>
    refine (ofJson?_ofFields_eq_some_iff (by simp) (by simp [depth_boundJson])).trans ?_
    show _ ↔ ∀ x ∈ min.toList ++ max.toList, x.ReadsBack
    rw [← bounds_iff hfinite]
    simp [ofFields?, text, slots?_bounds, Json.default?, Option.bind_eq_some_iff]
  | percent min max =>
    refine (ofJson?_ofFields_eq_some_iff (by simp) (by simp [depth_boundJson])).trans ?_
    show _ ↔ ∀ x ∈ min.toList ++ max.toList, x.ReadsBack
    rw [← bounds_iff hfinite]
    simp [ofFields?, text, slots?_bounds, Json.default?, Option.bind_eq_some_iff]
  | choice members =>
    refine iff_of_true ?_ nofun
    refine (ofJson?_ofFields_eq_some_iff (by simp) (by simp [depth_namesJson])).2 ⟨?_, ?_⟩
    · simp [isReadable_namesJson]
    · have hslots : (Json.ofFields [("members", namesJson members)]).slots? ["members"] =
          some [some (namesJson members)] :=
        Json.slots?_ofFields_self [("members", namesJson members)] (by simp)
      simp [ofFields?, text, hslots, Json.required?, list?_namesJson, NameSet.ofNames_keys]

theorem isProper_json (kind : ValueKind) : kind.json.IsProper := by
  refine Json.isProper_ofFields (List.forall_mem_cons.2 ⟨Json.Written.isProper_encode _, ?_⟩)
  cases kind with
  | boolean => simp
  | int min max => simp [isProper_integerJson]
  | float min max => simp [isProper_boundJson]
  | percent min max => simp [isProper_boundJson]
  | choice members => simp [isProper_namesJson]

theorem finite_of_bound {slot : Option Json} {b : Option Binary64}
    (h : Json.default? none (Json.optional? Json.binary64?) slot = some b) :
    ∀ x ∈ b.toList, x.isFinite = true := by
  intro x hx
  obtain rfl := Option.mem_toList.1 hx
  cases slot with
  | none => cases h
  | some j => exact Json.isFinite_of_binary64? (Json.eq_some_of_optional? h)

theorem exists_of_bounds {α : Type} {read : Option Json → Option α} {make : α → α → ValueKind}
    {rest : Json} {kind : ValueKind}
    (h : (do
      match ← rest.slots? ["min", "max"] with
      | [min, max] => return make (← read min) (← read max)
      | _ => none) = some kind) :
    ∃ min max a b, read min = some a ∧ read max = some b ∧ kind = make a b := by
  obtain ⟨slots, -, h⟩ := Option.bind_eq_some_iff.1 h
  split at h
  · obtain ⟨a, ha, h⟩ := Option.bind_eq_some_iff.1 h
    obtain ⟨b, hb, h⟩ := Option.bind_eq_some_iff.1 h
    cases h
    exact ⟨_, _, a, b, ha, hb, rfl⟩
  · cases h

theorem finite_of_ofFields? {tag : String} {rest : Json} {kind : ValueKind}
    (h : ofFields? tag rest = some kind) : ∀ x ∈ kind.numbers, x.isFinite = true := by
  unfold ofFields? at h
  dsimp only at h
  split at h
  · split at h <;> cases h
    nofun
  · obtain ⟨-, -, min, max, -, -, rfl⟩ := exists_of_bounds h
    nofun
  · obtain ⟨_, _, min, max, hmin, hmax, rfl⟩ := exists_of_bounds h
    exact List.forall_mem_append.2 ⟨finite_of_bound hmin, finite_of_bound hmax⟩
  · obtain ⟨_, _, min, max, hmin, hmax, rfl⟩ := exists_of_bounds h
    exact List.forall_mem_append.2 ⟨finite_of_bound hmin, finite_of_bound hmax⟩
  · obtain ⟨slots, -, h⟩ := Option.bind_eq_some_iff.1 h
    split at h
    · obtain ⟨names, -, h⟩ := Option.bind_eq_some_iff.1 h
      cases h
      nofun
    · cases h
  · cases h

/-- The bounds that a kind has in a document are finite. -/
theorem finite_of_ofJson? {j : Json} {kind : ValueKind} (h : ofJson? j = some kind) :
    ∀ x ∈ kind.numbers, x.isFinite = true := by
  unfold ofJson? at h
  split at h
  · split at h
    · obtain ⟨tag, -, h⟩ := Option.bind_eq_some_iff.1 h
      exact finite_of_ofFields? h
    · obtain ⟨named, -, h⟩ := Option.bind_eq_some_iff.1 h
      obtain ⟨slot, -, h⟩ := Option.bind_eq_some_iff.1 h
      obtain ⟨tag, -, h⟩ := Option.bind_eq_some_iff.1 h
      exact finite_of_ofFields? h
    · cases h
  · cases h

end ValueKind

/-! ### Thresholds -/

theorem Interval.ofJson?_json {r : Interval}
    (hfinite : ∀ x ∈ r.min.toList ++ r.max.toList, x.isFinite = true) :
    Interval.ofJson? r.json = some r ↔ ∀ x ∈ r.min.toList ++ r.max.toList, x.ReadsBack := by
  obtain ⟨hmin, hmax⟩ := List.forall_mem_append.1 hfinite
  have hslots : r.json.slots? ["min", "max", "min_included", "max_included"] =
      some [some (boundJson r.min), some (boundJson r.max), some (.bool r.minIncluded),
        some (.bool r.maxIncluded)] :=
    Json.slots?_ofFields_self [("min", boundJson r.min), ("max", boundJson r.max),
      ("min_included", .bool r.minIncluded), ("max_included", .bool r.maxIncluded)] (by simp)
  rw [List.forall_mem_append, ← optional?_boundJson hmin, ← optional?_boundJson hmax]
  obtain ⟨min, max, minIncluded, maxIncluded⟩ := r
  simp [Interval.ofJson?, hslots, Json.default?, Json.bool?, Option.bind_eq_some_iff]

namespace Threshold

theorem ofJson?_json {t : Threshold} (hfinite : ∀ x ∈ t.numbers, x.isFinite = true) :
    ofJson? t.json = some t ↔ ∀ x ∈ t.numbers, x.ReadsBack := by
  cases t with
  | range r =>
    show _ ↔ ∀ x ∈ r.min.toList ++ r.max.toList, x.ReadsBack
    rw [← Interval.ofJson?_json hfinite]
    simp [ofJson?, json, shape, Json.members?_ofFields, Option.bind_eq_some_iff]
  | flag b => simp [ofJson?, json, shape, Json.members?_ofFields, Json.bool?, numbers]
  | members names =>
    simp [ofJson?, json, shape, Json.members?_ofFields, list?_namesJson, NameSet.ofNames_keys,
      numbers]

theorem isProper_json (t : Threshold) : t.json.IsProper := by
  refine Json.isProper_ofFields (List.forall_mem_singleton.2 ?_)
  cases t with
  | range r =>
    refine Json.isProper_ofFields ?_
    simp [isProper_boundJson, Json.IsProper]
  | flag b => trivial
  | members names => exact isProper_namesJson names

end Threshold

/-! ### Tables of thresholds -/

namespace ThresholdTable

variable {t : ThresholdTable}

theorem thresholdSeverity?_text {severity : Severity} (h : severity ≠ .unknown) :
    thresholdSeverity? severity.text = some severity := by
  simp [thresholdSeverity?, Severity.read?_text, h]

theorem json_eq (hkeyed : ∀ row ∈ t.rows, row.1 ≠ .unknown) :
    json t = Json.ofFields (t.rows.map fun r => (r.1.text, r.2.json)) := by
  rw [json, List.filter_eq_self.2]
  simpa using hkeyed

/-- What is read of the row that a threshold is written as. -/
def reread? (row : Severity × Threshold) : Option (Severity × Threshold) := do
  return (← thresholdSeverity? row.1.text, ← Threshold.ofJson? row.2.json)

theorem reread?_eq {row : Severity × Threshold} (h : row.1 ≠ .unknown) :
    reread? row = (Threshold.ofJson? row.2.json).map fun u => (row.1, u) := by
  rw [reread?, thresholdSeverity?_text h]
  cases Threshold.ofJson? row.2.json <;> rfl

theorem ofJson?_json_eq_some_iff (hkeyed : ∀ row ∈ t.rows, row.1 ≠ .unknown) :
    ofJson? (json t) = some t ↔
      ∃ rows, t.rows.map reread? = rows.map some ∧ Table.ofList rows = t := by
  rw [json_eq hkeyed, ofJson?, Json.members?_ofFields]
  simp only [Option.bind_eq_bind, Option.bind_some, Option.bind_eq_some_iff, List.mapM_map,
    Json.mapM_eq_some_iff, pure, Option.some.injEq]
  rfl

theorem keys_of_map_reread? {rows rows' : List (Severity × Threshold)}
    (hkeyed : ∀ row ∈ rows, row.1 ≠ .unknown) (h : rows.map reread? = rows'.map some) :
    rows'.map (·.1) = rows.map (·.1) := by
  induction rows generalizing rows' with
  | nil => cases rows' <;> simp_all
  | cons row rows ih =>
    rw [List.forall_mem_cons] at hkeyed
    cases rows' with
    | nil => cases h
    | cons row' rows' =>
      obtain ⟨hrow, hrows⟩ := List.cons.inj h
      rw [reread?_eq hkeyed.1] at hrow
      obtain ⟨u, -, rfl⟩ := Option.map_eq_some_iff.1 hrow
      rw [List.map_cons, List.map_cons, ih hkeyed.2 hrows]

/-- Each row is read on its own and keeps its key, so that it stays in its place. -/
theorem ofJson?_json_iff (hkeyed : ∀ row ∈ t.rows, row.1 ≠ .unknown) :
    ofJson? (json t) = some t ↔ ∀ row ∈ t.rows, Threshold.ofJson? row.2.json = some row.2 := by
  rw [ofJson?_json_eq_some_iff hkeyed]
  constructor
  · rintro ⟨rows, hrows, hlist⟩
    -- The rows that are read have the keys of the table in their order, so none of them replaces
    -- another, and a row that differs would make another table.
    have hkeys : (rows.map (·.1)).Pairwise fun a b => compare a b = .lt := by
      rw [keys_of_map_reread? hkeyed hrows, List.pairwise_map]
      exact t.ascending
    have hsame : rows = t.rows := by
      rw [← Table.rows_ofList (List.pairwise_map.1 hkeys), hlist]
    rw [hsame, List.map_inj_left] at hrows
    intro row hrow
    have hread := hrows row hrow
    rw [reread?_eq (hkeyed row hrow)] at hread
    obtain ⟨u, hu, heq⟩ := Option.map_eq_some_iff.1 hread
    rw [hu, ← heq]
  · intro h
    refine ⟨t.rows, List.map_inj_left.2 fun row hrow => ?_, Table.ofList_rows t⟩
    rw [reread?_eq (hkeyed row hrow), h row hrow, Option.map_some]

theorem ofJson?_json (hkeyed : ∀ row ∈ t.rows, row.1 ≠ .unknown)
    (hfinite : ∀ row ∈ t.rows, ∀ x ∈ row.2.numbers, x.isFinite = true) :
    ofJson? (json t) = some t ↔ ∀ row ∈ t.rows, ∀ x ∈ row.2.numbers, x.ReadsBack := by
  rw [ofJson?_json_iff hkeyed]
  exact forall₂_congr fun row hrow => Threshold.ofJson?_json (hfinite row hrow)

theorem isProper_json (t : ThresholdTable) : (json t).IsProper := by
  refine Json.isProper_ofFields fun f hf => ?_
  obtain ⟨row, -, rfl⟩ := List.mem_map.1 hf
  exact row.2.isProper_json

end ThresholdTable

/-! ### Rules -/

namespace Rule

/-- The fields of a rule in a document. -/
def fieldNames : List String :=
  ["id", "fact_key", "enabled", "value_kind", "default_thresholds", "custom_thresholds"]

/-- What is written for each field; a fact key that is the id is left out. -/
def slots (r : Rule) : List (Option Json) :=
  [some (Json.ofString r.id),
    if r.factKey = r.id then none else some (Json.ofString r.factKey),
    some (.bool r.enabled),
    some r.kind.json,
    some (ThresholdTable.json r.defaults),
    some (ThresholdTable.json r.custom)]

theorem json_eq (r : Rule) : r.json = Json.ofFields (Json.members fieldNames r.slots) := by
  by_cases h : r.factKey = r.id <;> simp [json, slots, fieldNames, Json.members, h]

theorem isProper_json (r : Rule) : r.json.IsProper := by
  rw [json_eq]
  refine Json.isProper_ofFields fun f hf => ?_
  have hslot := (Json.mem_members hf).2
  simp only [slots, List.mem_cons, Option.some.injEq, List.not_mem_nil, or_false] at hslot
  rcases hslot with h | h | h | h | h | h
  · exact h ▸ Json.Written.isProper_encode r.id
  · split at h
    · cases h
    · exact Option.some.inj h ▸ Json.Written.isProper_encode r.factKey
  · rw [h]
    trivial
  · exact h ▸ r.kind.isProper_json
  · exact h ▸ ThresholdTable.isProper_json r.defaults
  · exact h ▸ ThresholdTable.isProper_json r.custom

/-- The fact key that is read is that of the rule, whether or not it was left out. -/
theorem factKey_slot (r : Rule) : ∃ factKey, Json.default? none (Json.optional? Json.string?)
      (if r.factKey = r.id then none else some (Json.ofString r.factKey)) = some factKey ∧
    factKey.getD r.id = r.factKey := by
  by_cases h : r.factKey = r.id
  · exact ⟨none, by simp [h, Json.default?], h.symm⟩
  · refine ⟨some r.factKey, ?_, rfl⟩
    simp [h, Json.default?, Json.optional?, Json.ofString, Json.string?, Json.Written.decode_encode]

/-- The parts of a rule are read one after the other. -/
theorem ofJson?_json_iff {r : Rule} (hsound : r.IsSound) :
    ofJson? r.json = some (.ok r) ↔ ValueKind.ofJson? r.kind.json = some r.kind ∧
      ThresholdTable.ofJson? (ThresholdTable.json r.defaults) = some r.defaults ∧
      ThresholdTable.ofJson? (ThresholdTable.json r.custom) = some r.custom := by
  have hslots : r.json.slots? fieldNames = some r.slots := by
    rw [json_eq]
    exact Json.slots?_ofFields (by decide) rfl
  obtain ⟨factKey, hread, hkey⟩ := r.factKey_slot
  simp only [fieldNames, slots] at hslots
  -- The id, the fact key and the flag are read whatever they are; the other three parts may fail.
  simp only [ofJson?, hslots, Option.bind_eq_bind, Option.bind_some, Json.required?, hread,
    Json.string?_ofString]
  simp only [Json.default?, Json.bool?, Option.bind_some, Option.bind_eq_some_iff, pure,
    Option.some.injEq, make_eq_ok_iff, hkey]
  constructor
  · rintro ⟨kind, hkind, defaults, hdefaults, custom, hcustom, hr, -⟩
    obtain ⟨id, fk, enabled, k, d, c⟩ := r
    simp only [mk.injEq] at hr
    obtain ⟨-, -, -, rfl, rfl, rfl⟩ := hr
    exact ⟨hkind, hdefaults, hcustom⟩
  · rintro ⟨hkind, hdefaults, hcustom⟩
    exact ⟨r.kind, hkind, r.defaults, hdefaults, r.custom, hcustom, rfl, hsound⟩

/-- A sound rule is read as itself exactly if its numbers are. -/
theorem ofJson?_json {r : Rule} (hsound : r.IsSound)
    (hkind : ∀ x ∈ r.kind.numbers, x.isFinite = true) :
    ofJson? r.json = some (.ok r) ↔ ∀ x ∈ r.numbers, x.ReadsBack := by
  obtain ⟨hkeyed, hkeyed'⟩ := List.forall_mem_append.1 hsound.keyed
  obtain ⟨hfits, hfits'⟩ := List.forall_mem_append.1 hsound.fits
  rw [ofJson?_json_iff hsound, ValueKind.ofJson?_json hkind,
    ThresholdTable.ofJson?_json hkeyed fun row hrow => (hfits row hrow).finite,
    ThresholdTable.ofJson?_json hkeyed' fun row hrow => (hfits' row hrow).finite]
  simp only [numbers, List.forall_mem_append, List.flatMap_append, List.forall_mem_flatMap]

end Rule

/-! ### Catalogs -/

namespace RuleCatalog

theorem isProper_json (c : RuleCatalog) : c.json.IsProper := by
  refine Json.isProper_ofFields (List.forall_mem_singleton.2 (Json.areProper_iff.2 fun j hj => ?_))
  obtain ⟨r, -, rfl⟩ := List.mem_map.1 hj
  exact r.isProper_json

theorem ofText_text_iff_of_isSound {c : RuleCatalog} (hsound : ∀ r ∈ c.rules, r.IsSound)
    (hkinds : ∀ r ∈ c.rules, ∀ x ∈ r.kind.numbers, x.isFinite = true) :
    ofText c.text = .ok c ↔ ∀ x ∈ c.numbers, x.ReadsBack := by
  have hslots : c.json.slots? ["rules"] = some [some (.array (c.rules.map Rule.json))] :=
    Json.slots?_ofFields_self [("rules", .array (c.rules.map Rule.json))] (by simp)
  have hjson : ofJson? c.json = some (.ok c) ↔
      ∀ r ∈ c.rules, Rule.ofJson? r.json = some (.ok r) := by
    rw [ofJson?_eq_ok_iff, hslots, ← List.map_inj_left]
    simp [Function.comp_def]
  have htext : ofText c.text = .ok c ↔ ofJson? c.json = some (.ok c) := by
    rw [ofText_eq_ok_iff, text, String.toList_ofList, Json.read?_pretty c.isProper_json]
    simp
  rw [htext, hjson, numbers, List.forall_mem_flatMap]
  exact forall₂_congr fun r hr => Rule.ofJson?_json (hsound r hr) (hkinds r hr)

/-- The catalogs that are read from a document and then edited. -/
inductive FromDocument : RuleCatalog → Prop where
  | ofText {text : String} {c : RuleCatalog} (h : RuleCatalog.ofText text = .ok c) : FromDocument c
  | withEnabled {c d : RuleCatalog} (hc : FromDocument c) {id : String} {enabled : Bool}
    (h : c.withEnabled? id enabled = some d) : FromDocument d
  | withThreshold {c d : RuleCatalog} (hc : FromDocument c) {id : String} {severity : Severity}
    {t : Threshold} (h : c.withThreshold? id severity t = some (.ok d)) : FromDocument d

namespace FromDocument

variable {c : RuleCatalog}

theorem built (h : c.FromDocument) : c.Built := by
  induction h with
  | ofText h => exact .ofText h
  | withEnabled _ h ih => exact ih.withEnabled h
  | withThreshold _ h ih => exact ih.withThreshold h

/-- The kinds come out of the document, where every number is finite, and no edit changes them. -/
theorem finite_kinds (h : c.FromDocument) :
    ∀ r ∈ c.rules, ∀ x ∈ r.kind.numbers, x.isFinite = true := by
  induction h with
  | ofText h =>
    intro r hr
    obtain ⟨j, hj⟩ := exists_ofJson?_of_ofText h hr
    obtain ⟨_, _, _, _, kind, _, _, hkind, hmake⟩ := Rule.exists_make_of_ofJson? hj
    obtain ⟨rfl, -⟩ := Rule.make_eq_ok_iff.1 hmake
    exact ValueKind.finite_of_ofJson? hkind
  | withEnabled _ h ih => exact forall_mem_of_withEnabled? h (fun _ hr => hr) ih
  | withThreshold _ h ih =>
    refine forall_mem_of_withThreshold? h (fun r s hs hr => ?_) ih
    obtain ⟨-, rfl⟩ := Rule.withThreshold_eq_ok_iff.1 hs
    exact hr

/-- A catalog that came out of a document, however it was edited since, is written as a document
that is read as the same catalog: exactly if each floating-point number in it reads back. -/
theorem ofText_text_iff (h : c.FromDocument) :
    RuleCatalog.ofText c.text = .ok c ↔ ∀ x ∈ c.numbers, x.ReadsBack :=
  ofText_text_iff_of_isSound h.built.isSound h.finite_kinds

end FromDocument

set_option maxRecDepth 2000 in
-- The power of ten in 3e+23 is rounded before it is multiplied, and the product is rounded again.
example : ¬Binary64.ReadsBack ⟨0x44CFC3842BD1F072⟩ := by decide +kernel

set_option maxRecDepth 2000 in
/-- The catalog of a document with the rule on slippage, edited by the signer. Its numbers 0 and 10
read back. -/
theorem ofText_text_slippageCatalog :
    slippageCatalog.FromDocument ∧
      RuleCatalog.ofText slippageCatalog.text = .ok slippageCatalog := by
  have hzero : Binary64.zero.ReadsBack := by decide +kernel
  have hten : Binary64.ReadsBack ⟨0x4024000000000000⟩ := by decide +kernel
  have hread : RuleCatalog.ofText (RuleCatalog.text ⟨[slippageRule], by simp⟩) =
      .ok ⟨[slippageRule], by simp⟩ := by
    refine (ofText_text_iff_of_isSound ?_ ?_).2 ?_
    · simpa using built_slippageRule.isSound
    · simp [slippageRule, ValueKind.numbers]
    · show ∀ x ∈ [Binary64.zero], x.ReadsBack
      simpa using hzero
  have hfrom : slippageCatalog.FromDocument :=
    .withThreshold (.ofText hread) withThreshold?_slippage
  have hnumbers : ∀ x ∈ slippageCatalog.numbers, x.ReadsBack := by
    show ∀ x ∈ [Binary64.zero, ⟨0x4024000000000000⟩], x.ReadsBack
    simpa using ⟨hzero, hten⟩
  exact ⟨hfrom, hfrom.ofText_text_iff.2 hnumbers⟩

end RuleCatalog

end Countersign
