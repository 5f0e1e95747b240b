/-! Tables with ascending keys. Two tables with the same entries are equal, because the rows are
kept in order and no key has two. -/

namespace Countersign

structure Table (κ : Type) (α : Type) [Ord κ] where
  rows : List (κ × α)
  ascending : rows.Pairwise fun a b => compare a.1 b.1 = .lt
deriving DecidableEq

namespace Table

variable {κ α : Type} [Ord κ]

theorem ext {s t : Table κ α} (h : s.rows = t.rows) : s = t := by
  cases s; cases t; simp_all

def empty : Table κ α := ⟨[], .nil⟩

instance : Inhabited (Table κ α) := ⟨empty⟩

/-- The rows with `value` under `key`, in place of what was there. -/
def insertRow (key : κ) (value : α) : List (κ × α) → List (κ × α)
  | [] => [(key, value)]
  | row :: rows =>
    match compare key row.1 with
    | .lt => (key, value) :: row :: rows
    | .eq => (key, value) :: rows
    | .gt => row :: insertRow key value rows

def keys (t : Table κ α) : List κ := t.rows.map (·.1)

def values (t : Table κ α) : List α := t.rows.map (·.2)

def get? (t : Table κ α) (key : κ) : Option α :=
  (t.rows.find? fun r => compare r.1 key = .eq).map (·.2)

def contains (t : Table κ α) (key : κ) : Bool := t.rows.any fun r => compare r.1 key = .eq

def erase (t : Table κ α) (key : κ) : Table κ α :=
  ⟨t.rows.filter fun r => compare r.1 key ≠ .eq, t.ascending.filter _⟩

theorem mem_insertRow {key : κ} {value : α} {rows : List (κ × α)} {r : κ × α}
    (h : r ∈ insertRow key value rows) : r = (key, value) ∨ r ∈ rows := by
  induction rows with
  | nil => simpa [insertRow] using h
  | cons row rows ih =>
    simp only [insertRow] at h
    split at h
    · simpa using h
    · simp only [List.mem_cons] at h ⊢
      exact h.imp_right .inr
    · simp only [List.mem_cons] at h ⊢
      rcases h with h | h
      · exact .inr (.inl h)
      · exact (ih h).imp_right .inr

theorem ascending_insertRow [Std.TransOrd κ] [Std.LawfulEqOrd κ] (key : κ) (value : α)
    {rows : List (κ × α)} (h : rows.Pairwise fun a b => compare a.1 b.1 = .lt) :
    (insertRow key value rows).Pairwise fun a b => compare a.1 b.1 = .lt := by
  induction rows with
  | nil => simp [insertRow]
  | cons row rows ih =>
    rw [List.pairwise_cons] at h
    simp only [insertRow]
    split
    · next hk =>
      refine List.pairwise_cons.2 ⟨fun r hr => ?_, List.pairwise_cons.2 h⟩
      rcases List.mem_cons.1 hr with rfl | hr
      · exact hk
      · exact Std.TransCmp.lt_trans hk (h.1 r hr)
    · next hk =>
      refine List.pairwise_cons.2 ⟨fun r hr => ?_, h.2⟩
      rw [Std.LawfulEqCmp.eq_of_compare hk]
      exact h.1 r hr
    · next hk =>
      refine List.pairwise_cons.2 ⟨fun r hr => ?_, ih h.2⟩
      rcases mem_insertRow hr with rfl | hr
      · exact Std.OrientedCmp.gt_iff_lt.1 hk
      · exact h.1 r hr

theorem insertRow_eq_append {key : κ} {value : α} {rows : List (κ × α)}
    (h : ∀ row ∈ rows, compare key row.1 = .gt) :
    insertRow key value rows = rows ++ [(key, value)] := by
  induction rows with
  | nil => rfl
  | cons row rows ih =>
    rw [List.forall_mem_cons] at h
    rw [insertRow, h.1, ih h.2, List.cons_append]

theorem contains_eq_isSome_get? (t : Table κ α) (key : κ) :
    t.contains key = (t.get? key).isSome := by
  simp [contains, get?, List.isSome_find?]

variable [Std.TransOrd κ] [Std.LawfulEqOrd κ]

/-- The table with `value` under `key`, in place of what was there. -/
def insert (t : Table κ α) (key : κ) (value : α) : Table κ α :=
  ⟨insertRow key value t.rows, ascending_insertRow key value t.ascending⟩

/-- The table with the given entries, later ones in place of earlier ones with the same key. -/
def ofList (entries : List (κ × α)) : Table κ α :=
  entries.foldl (fun t e => t.insert e.1 e.2) empty

/-- Entries that are in order already are the rows of their table. -/
theorem rows_ofList {entries : List (κ × α)}
    (h : entries.Pairwise fun a b => compare a.1 b.1 = .lt) : (ofList entries).rows = entries := by
  -- On the entries that are still to come, all of them behind the rows of the table so far.
  have hfold : ∀ (entries : List (κ × α)) (t : Table κ α),
      (t.rows ++ entries).Pairwise (fun a b => compare a.1 b.1 = .lt) →
      (entries.foldl (fun t e => t.insert e.1 e.2) t).rows = t.rows ++ entries := by
    intro entries
    induction entries with
    | nil => simp
    | cons e es ih =>
      intro t h
      have hlast : ∀ row ∈ t.rows, compare e.1 row.1 = .gt := fun row hrow =>
        Std.OrientedCmp.gt_iff_lt.2
          ((List.pairwise_append.1 h).2.2 row hrow e List.mem_cons_self)
      have hinsert : (t.insert e.1 e.2).rows = t.rows ++ [e] := insertRow_eq_append hlast
      rw [List.foldl_cons, ih, hinsert, List.append_assoc, List.singleton_append]
      rwa [hinsert, List.append_assoc, List.singleton_append]
  exact hfold entries empty h

@[simp] theorem ofList_rows (t : Table κ α) : ofList t.rows = t := ext (rows_ofList t.ascending)

theorem get?_insert (t : Table κ α) (key other : κ) (value : α) :
    (t.insert key value).get? other =
      if compare key other = .eq then some value else t.get? other := by
  obtain ⟨rows, h⟩ := t
  simp only [get?, insert]
  clear h
  induction rows with
  | nil =>
    simp only [insertRow, List.find?_cons, List.find?_nil]
    by_cases hk : compare key other = .eq <;> simp [hk]
  | cons row rows ih =>
    simp only [insertRow]
    split
    · by_cases hk : compare key other = .eq <;> simp [hk]
    · next hrow =>
      rw [Std.LawfulEqCmp.eq_of_compare hrow]
      by_cases hk : compare row.1 other = .eq <;> simp [hk]
    · next hrow =>
      by_cases hr : compare row.1 other = .eq
      · have : compare key other ≠ .eq := fun hk => by
          rw [Std.LawfulEqCmp.eq_of_compare hk, Std.LawfulEqCmp.eq_of_compare hr] at hrow
          simp at hrow
        simp [hr, this]
      · simpa [hr] using ih

omit [Std.TransOrd κ] in
theorem get?_eq_some_iff {t : Table κ α} {key : κ} {value : α} :
    t.get? key = some value ↔ (key, value) ∈ t.rows := by
  obtain ⟨rows, h⟩ := t
  simp only [get?]
  induction rows with
  | nil => simp
  | cons row rows ih =>
    rw [List.pairwise_cons] at h
    rw [List.find?_cons]
    by_cases hk : compare row.1 key = .eq
    · have hkey : row.1 = key := Std.LawfulEqCmp.eq_of_compare hk
      have hrest : (key, value) ∉ rows := fun hmem => by
        have hlt := h.1 _ hmem
        rw [hk] at hlt
        cases hlt
      subst hkey
      simp only [Std.ReflCmp.compare_self, decide_true, Option.map_some, Option.some.injEq,
        List.mem_cons, hrest, or_false]
      constructor
      · rintro rfl; rfl
      · exact fun hrow => (Prod.mk.inj hrow).2.symm
    · have hrow : (key, value) ≠ row := by
        rintro rfl
        exact hk Std.ReflCmp.compare_self
      simp only [hk, decide_false, List.mem_cons, hrow, false_or]
      exact ih h.2

theorem contains_insert {t : Table κ α} {key other : κ} {value : α} :
    (t.insert key value).contains other = true ↔
      compare key other = .eq ∨ t.contains other = true := by
  rw [contains_eq_isSome_get?, contains_eq_isSome_get?, get?_insert]
  split <;> simp_all

omit [Std.TransOrd κ] in
theorem contains_erase {t : Table κ α} {key other : κ} :
    (t.erase key).contains other = true ↔ compare key other ≠ .eq ∧ t.contains other = true := by
  simp only [contains, erase, List.any_filter, List.any_eq_true, Bool.and_eq_true,
    decide_eq_true_eq, ne_eq, Std.LawfulEqCmp.compare_eq_iff_eq]
  constructor
  · rintro ⟨r, hr, hne, rfl⟩
    exact ⟨fun h => hne h.symm, r, hr, rfl⟩
  · rintro ⟨hne, r, hr, rfl⟩
    exact ⟨r, hr, fun h => hne h.symm, rfl⟩

omit [Std.TransOrd κ] in
theorem contains_iff_mem_keys {t : Table κ α} {key : κ} : t.contains key = true ↔ key ∈ t.keys := by
  simp [contains, keys]

omit [Std.TransOrd κ] in
theorem nodup_rows (t : Table κ α) : t.rows.Nodup := by
  refine t.ascending.imp ?_
  rintro a _ h rfl
  exact absurd (h.symm.trans Std.ReflCmp.compare_self) (by decide)

/-- A table is known by what is found in it. -/
theorem eq_of_get? {s t : Table κ α} (h : ∀ key, s.get? key = t.get? key) : s = t := by
  have hmem : ∀ row, row ∈ s.rows ↔ row ∈ t.rows := by
    rintro ⟨key, value⟩
    rw [← get?_eq_some_iff, ← get?_eq_some_iff, h]
  have hperm : s.rows.Perm t.rows := (List.perm_ext_iff_of_nodup s.nodup_rows t.nodup_rows).2 hmem
  refine ext (hperm.eq_of_pairwise ?_ s.ascending t.ascending)
  intro a b _ _ hab hba
  exact absurd hba (Std.OrientedCmp.not_lt_of_lt hab)

/-- Where the rows of one table are put into another, they are found before those of the other. -/
theorem get?_foldl_insert (t u : Table κ α) (key : κ) :
    (u.rows.foldl (fun t row => t.insert row.1 row.2) t).get? key =
      (u.get? key).or (t.get? key) := by
  obtain ⟨rows, h⟩ := u
  simp only [get?]
  induction rows generalizing t with
  | nil => simp
  | cons row rows ih =>
    rw [List.pairwise_cons] at h
    rw [List.foldl_cons, ih (t.insert row.1 row.2) h.2, ← get?, get?_insert, List.find?_cons]
    by_cases hkey : compare row.1 key = .eq
    · -- No later row has the key of the first.
      have hrest : rows.find? (fun r => compare r.1 key = .eq) = none := by
        rw [List.find?_eq_none, ← Std.LawfulEqCmp.eq_of_compare hkey]
        intro r hr
        simp [Std.OrientedCmp.gt_iff_lt.2 (h.1 r hr)]
      simp [hkey, hrest]
    · simp [hkey, get?]

end Table

/-- A set of names, in the order of their code points. -/
abbrev NameSet := Table String Unit

namespace NameSet

def ofNames (names : List String) : NameSet := Table.ofList (names.map fun n => (n, ()))

def add (s : NameSet) (name : String) : NameSet := s.insert name ()

/-- A set is made again of its own names. -/
theorem ofNames_keys (s : NameSet) : ofNames s.keys = s := by
  rw [ofNames, Table.keys, List.map_map]
  exact (congrArg Table.ofList (List.map_id s.rows)).trans (Table.ofList_rows s)

theorem contains_add {s : NameSet} {name other : String} :
    (s.add name).contains other = true ↔ name = other ∨ s.contains other = true := by
  rw [add, Table.contains_insert, Std.LawfulEqCmp.compare_eq_iff_eq]

theorem contains_erase {s : NameSet} {name other : String} :
    (s.erase name).contains other = true ↔ name ≠ other ∧ s.contains other = true := by
  rw [Table.contains_erase, ne_eq, Std.LawfulEqCmp.compare_eq_iff_eq]

theorem contains_foldl_erase {names : List String} {s : NameSet} {other : String} :
    (names.foldl Table.erase s).contains other = true ↔
      other ∉ names ∧ s.contains other = true := by
  induction names generalizing s with
  | nil => simp
  | cons name names ih =>
    rw [List.foldl_cons, ih, contains_erase, List.mem_cons, not_or, ← and_assoc]
    exact and_congr_left' (and_comm.trans (and_congr_left' ne_comm))

/-- A set is known by the names in it. -/
theorem eq_of_contains {s t : NameSet} (h : ∀ name, s.contains name = true ↔ t.contains name = true) :
    s = t := by
  refine Table.eq_of_get? fun name => ?_
  have hname := h name
  rw [Table.contains_eq_isSome_get?, Table.contains_eq_isSome_get?] at hname
  cases hs : s.get? name <;> cases ht : t.get? name <;> simp_all

end NameSet

end Countersign
