import Countersign.Json.Field
import Countersign.Proofs.Json.Compact

/-! Records read back from the fields that are written of them. -/

namespace Countersign.Json

/-! ### Objects with named members -/

theorem membersAreProper_iff {ms : List (Written × Json)} :
    MembersAreProper ms ↔ ∀ m ∈ ms, m.1.IsProper ∧ m.2.IsProper := by
  induction ms with
  | nil => simp [MembersAreProper]
  | cons m ms ih => simp [MembersAreProper, ih, and_assoc]

theorem membersAreArrayFree_iff {ms : List (Written × Json)} :
    membersAreArrayFree ms = true ↔ ∀ m ∈ ms, m.2.isArrayFree = true := by
  induction ms with
  | nil => simp [membersAreArrayFree]
  | cons m ms ih => simp [membersAreArrayFree, ih]

theorem areProper_iff {js : List Json} : AreProper js ↔ ∀ j ∈ js, j.IsProper := by
  induction js with
  | nil => simp [AreProper]
  | cons j js ih => simp [AreProper, ih]

theorem areReadable_iff {js : List Json} :
    areReadable js = true ↔ ∀ j ∈ js, j.isReadable = true := by
  induction js with
  | nil => simp [areReadable]
  | cons j js ih => simp [areReadable, ih]

theorem depthItems_le_iff {js : List Json} {n : Nat} :
    depthItems js ≤ n ↔ ∀ j ∈ js, j.depth ≤ n := by
  induction js with
  | nil => simp [depthItems]
  | cons j js ih => rw [depthItems, Nat.max_le, ih, List.forall_mem_cons]

theorem isProper_ofFields {fs : List (String × Json)} (h : ∀ f ∈ fs, f.2.IsProper) :
    (ofFields fs).IsProper := by
  refine membersAreProper_iff.2 fun m hm => ?_
  obtain ⟨f, hf, rfl⟩ := List.mem_map.1 hm
  exact ⟨Written.isProper_encode f.1, h f hf⟩

theorem isArrayFree_ofFields {fs : List (String × Json)} (h : ∀ f ∈ fs, f.2.isArrayFree = true) :
    (ofFields fs).isArrayFree = true := by
  refine membersAreArrayFree_iff.2 fun m hm => ?_
  obtain ⟨f, hf, rfl⟩ := List.mem_map.1 hm
  exact h f hf

theorem isReadable_ofFields_iff {fs : List (String × Json)} :
    (ofFields fs).isReadable = true ↔ ∀ f ∈ fs, f.2.isReadable = true := by
  show membersAreReadable (fs.map _) = true ↔ _
  induction fs with
  | nil => simp [membersAreReadable]
  | cons f fs ih => simp [membersAreReadable, Written.decode_encode, ih]

theorem depth_ofFields_le_iff {fs : List (String × Json)} {n : Nat} :
    (ofFields fs).depth ≤ n + 1 ↔ ∀ f ∈ fs, f.2.depth ≤ n := by
  show depthMembers (fs.map _) + 1 ≤ n + 1 ↔ _
  rw [Nat.add_le_add_iff_right]
  induction fs with
  | nil => simp [depthMembers]
  | cons f fs ih => rw [List.map_cons, depthMembers, Nat.max_le, ih, List.forall_mem_cons]

theorem members?_ofFields (fs : List (String × Json)) : (ofFields fs).members? = some fs := by
  show (fs.map fun f => (Written.encode f.1, f.2)).mapM _ = some fs
  induction fs with
  | nil => rfl
  | cons f fs ih =>
    rw [List.map_cons, List.mapM_cons, ih, Written.decode_encode]
    rfl

/-! ### Slots -/

/-- The members that are written for the slots of the fields `names`. -/
def members (names : List String) (slots : List (Option Json)) : List (String × Json) :=
  (names.zip slots).filterMap fun f => f.2.map fun j => (f.1, j)

theorem mem_members {names : List String} {slots : List (Option Json)} {f : String × Json}
    (h : f ∈ members names slots) : f.1 ∈ names ∧ some f.2 ∈ slots := by
  obtain ⟨⟨name, slot⟩, hmem, hf⟩ := List.mem_filterMap.1 h
  obtain ⟨j, rfl, rfl⟩ := Option.map_eq_some_iff.1 hf
  exact List.of_mem_zip hmem

theorem members_cons (name : String) (names : List String) (slot : Option Json)
    (slots : List (Option Json)) :
    members (name :: names) (slot :: slots) =
      slot.toList.map (fun j => (name, j)) ++ members names slots := by
  cases slot <;> simp [members]

theorem only?_append {name : String} {before after : List (String × Json)}
    (hbefore : ∀ f ∈ before, f.1 ≠ name) (hafter : ∀ f ∈ after, f.1 ≠ name) (slot : Option Json) :
    only? name (before ++ (slot.toList.map (fun j => (name, j)) ++ after)) = some slot := by
  have hb : before.filter (fun m => m.1 = name) = [] := by simpa using hbefore
  have ha : after.filter (fun m => m.1 = name) = [] := by simpa using hafter
  cases slot <;> simp [only?, hb, ha]

theorem mapM_only?_append {names : List String} (hnodup : names.Nodup)
    {slots : List (Option Json)} (hlength : slots.length = names.length)
    {before : List (String × Json)} (hbefore : ∀ f ∈ before, f.1 ∉ names) :
    names.mapM (fun name => only? name (before ++ members names slots)) = some slots := by
  -- The members of fields that are read already go to `before`; their names do not come again.
  induction names generalizing slots before with
  | nil => rw [List.eq_nil_of_length_eq_zero hlength]; rfl
  | cons name names ih =>
    obtain ⟨slot, slots, rfl⟩ := List.exists_cons_of_length_eq_add_one hlength
    obtain ⟨hname, hnodup⟩ := List.nodup_cons.1 hnodup
    rw [members_cons]
    have hfirst : only? name (before ++ (slot.toList.map (fun j => (name, j)) ++
        members names slots)) = some slot := by
      refine only?_append (fun f hf hn => hbefore f hf ?_) (fun f hf hn => hname ?_) slot
      · exact hn ▸ List.mem_cons_self
      · exact hn ▸ (mem_members hf).1
    have hbefore' : ∀ f ∈ before ++ slot.toList.map (fun j => (name, j)), f.1 ∉ names := by
      intro f hf
      rcases List.mem_append.1 hf with hf | hf
      · exact fun hn => hbefore f hf (List.mem_cons_of_mem _ hn)
      · obtain ⟨j, -, rfl⟩ := List.mem_map.1 hf
        exact hname
    have hlength' : slots.length = names.length := by simpa using hlength
    have hrest := ih hnodup hlength' hbefore'
    rw [List.append_assoc] at hrest
    rw [List.mapM_cons, hfirst, hrest]
    rfl

/-- What is written for the fields is read for them. -/
theorem slots?_ofFields {names : List String} (hnodup : names.Nodup)
    {slots : List (Option Json)} (hlength : slots.length = names.length) :
    slots? names (ofFields (members names slots)) = some slots := by
  have h := members?_ofFields (members names slots)
  have hslots : names.mapM (fun name => only? name ([] ++ members names slots)) = some slots :=
    mapM_only?_append hnodup hlength (by simp)
  rw [ofFields] at h ⊢
  rw [slots?, h]
  · exact hslots
  · intro items hi
    cases hi

theorem members_map (fs : List (String × Json)) :
    members (fs.map (·.1)) (fs.map fun f => some f.2) = fs := by
  induction fs with
  | nil => rfl
  | cons f fs ih => rw [List.map_cons, List.map_cons, members_cons, ih]; rfl

/-- A record without a field that may be left out. -/
theorem slots?_ofFields_self (fs : List (String × Json)) (h : (fs.map (·.1)).Nodup) :
    slots? (fs.map (·.1)) (ofFields fs) = some (fs.map fun f => some f.2) := by
  have hlength : (fs.map fun f => some f.2).length = (fs.map (·.1)).length := by simp
  have hslots := slots?_ofFields h hlength
  rwa [members_map] at hslots

/-! ### Values -/

theorem mapM_eq_some_iff {f : α → Option β} {xs : List α} {ys : List β} :
    xs.mapM f = some ys ↔ xs.map f = ys.map some := by
  induction xs generalizing ys with
  | nil => cases ys <;> simp
  | cons x xs ih =>
    cases hx : f x with
    | none => cases ys <;> simp [List.mapM_cons, hx]
    | some y =>
      cases ys with
      | nil => simp [List.mapM_cons, hx, Option.bind_eq_some_iff]
      | cons z zs =>
        rw [List.map_cons, List.map_cons, List.cons.injEq, ← ih]
        simp [List.mapM_cons, hx, Option.bind_eq_some_iff, and_comm, and_assoc]

/-- A list is read from an array whose items are read as its elements. -/
theorem list?_eq_some_iff {read : Json → Option α} {j : Json} {xs : List α} :
    list? read j = some xs ↔ ∃ items, j = .array items ∧ items.map read = xs.map some := by
  cases j <;> simp [list?, items?, mapM_eq_some_iff]

@[simp] theorem word?_ofNat (w : UInt64) : word? (ofNat w.toNat) = some w := by
  have hint : int? (ofNat w.toNat) = some (w.toNat : Int) := by
    simp [int?, ofNat, Numeral.int?, Numeral.ofNat]
  have hword : Word.ofNat? w.toNat = some w := Word.ofNat?_eq_some_iff.2 rfl
  simp [word?, hint, hword]

@[simp] theorem int?_ofInt (i : Int) : int? (ofInt i) = some i := by
  have hsigned : ¬(decide (i < 0) = true ∧ i.natAbs = 0) := by
    rw [decide_eq_true_iff]
    omega
  show (if _ then some _ else none) = some i
  rw [if_pos ⟨rfl, rfl, hsigned⟩]
  simp only [Numeral.ofInt, decide_eq_true_eq, Option.some.injEq]
  split <;> omega

@[simp] theorem int64?_ofInt (i : Int64) : int64? (ofInt i.toInt) = some i := by
  have hrange : Int64.minValue.toInt ≤ i.toInt ∧ i.toInt ≤ Int64.maxValue.toInt :=
    ⟨Int64.minValue_le_toInt i, Int64.toInt_le i⟩
  rw [int64?, int?_ofInt]
  exact (if_pos hrange).trans (congrArg some (Int64.ofInt_toInt i))

@[simp] theorem string?_ofString (s : String) : string? (ofString s) = some s :=
  Written.decode_encode s

end Countersign.Json
