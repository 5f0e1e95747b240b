import Countersign.Proofs.Gas.Unbounded
import Countersign.Proofs.Quantity.Grammar
import Countersign.Queue.Record

/-! What a record says that its transaction costs. A figure may stand in several fields, and a field
that is missing, no amount, out of range or zero gives way to the next one. Main statement:
`cost_iff_firstPositive`. -/

namespace Countersign

/-! ### Fields as amounts -/

namespace Quantity

/-- The field is there, and its text is for the amount `n` below the bound. -/
def Says (bound : Nat) (field : Option String) (n : Nat) : Prop :=
  ∃ s ∈ field, ∃ text, Text.Trims s.toList text ∧ Denotes text n ∧ n < bound

/-- The field is for the amount `n`, or for none, which counts as zero. -/
def CountsAs (field : Option String) (n : Nat) : Prop :=
  Says (2 ^ 256) field n ∨ n = 0 ∧ ∀ m, ¬Says (2 ^ 256) field m

variable {field : Option String} {n : Nat}

theorem says_iff_read? :
    Says (2 ^ 256) field n ↔ (field.bind read?).map (·.toNat) = some n := by
  cases field with
  | none => simp [Says]
  | some s =>
    simp only [Says, Option.mem_some_iff, exists_eq_left', Option.bind_some, read?_eq_some_iff]

theorem says_iff_readWord? :
    Says (2 ^ 64) field n ↔ (field.bind readWord?).map (·.toNat) = some n := by
  cases field with
  | none => simp [Says]
  | some s =>
    simp only [Says, Option.mem_some_iff, exists_eq_left', Option.bind_some, map_toNat_readWord?,
      Option.filter_eq_some_iff, decide_eq_true_eq, read?_eq_some_iff]
    constructor
    · rintro ⟨text, htrims, hdenotes, hlt⟩
      exact ⟨⟨text, htrims, hdenotes, by omega⟩, hlt⟩
    · rintro ⟨⟨text, htrims, hdenotes, -⟩, hlt⟩
      exact ⟨text, htrims, hdenotes, hlt⟩

theorem toNat_readOrZero (field : Option String) :
    (readOrZero field).toNat = ((field.bind read?).map (·.toNat)).getD 0 := by
  rw [readOrZero]
  cases field.bind read? <;> rfl

theorem toNat_readOrZero_eq_iff : (readOrZero field).toNat = n ↔ CountsAs field n := by
  simp only [toNat_readOrZero, CountsAs, says_iff_read?]
  cases (field.bind read?).map (·.toNat) with
  | none => simp [eq_comm]
  | some m => simp

end Quantity

/-! ### The first positive figure -/

/-- `n` is the first positive one of the figures, or zero if none is positive. A figure is given by
what it is, which is nothing if it is missing. -/
inductive FirstPositive : List (Nat → Prop) → Nat → Prop
  | none : FirstPositive [] 0
  | here {figure : Nat → Prop} {rest : List (Nat → Prop)} {n : Nat} (h : figure n)
      (hpos : 0 < n) : FirstPositive (figure :: rest) n
  | later {figure : Nat → Prop} {rest : List (Nat → Prop)} {n : Nat}
      (h : ∀ m, figure m → m = 0) (hrest : FirstPositive rest n) :
      FirstPositive (figure :: rest) n

theorem firstPositive_zero_iff {figures : List (Nat → Prop)} :
    FirstPositive figures 0 ↔ ∀ figure ∈ figures, ∀ m, figure m → m = 0 := by
  induction figures with
  | nil => exact ⟨fun _ => nofun, fun _ => .none⟩
  | cons figure rest ih =>
    rw [List.forall_mem_cons, ← ih]
    constructor
    · intro h
      cases h with
      | here _ hpos => exact absurd hpos (Nat.lt_irrefl 0)
      | later h hrest => exact ⟨h, hrest⟩
    · rintro ⟨h, hrest⟩
      exact .later h hrest

section

variable {figure : Nat → Prop} {rest : List (Nat → Prop)} {found : Option Nat} {next n : Nat}

/-- A figure that is not positive gives way to what is found among the rest. -/
theorem firstPositive_cons_iff (hfigure : ∀ m, figure m ↔ found = some m)
    (hrest : ∀ m, FirstPositive rest m ↔ next = m) :
    FirstPositive (figure :: rest) n ↔ (found.filter (0 < ·)).getD next = n := by
  cases hfound : found.filter (0 < ·) with
  | none =>
    have hzero : ∀ m, figure m → m = 0 := by
      intro m hm
      have hnot := Option.filter_eq_none_iff.1 hfound m ((hfigure m).1 hm)
      simpa using hnot
    rw [Option.getD_none, ← hrest]
    constructor
    · intro h
      cases h with
      | here h hpos => exact absurd (hzero n h) (Nat.ne_of_gt hpos)
      | later _ hrest => exact hrest
    · exact .later hzero
  | some k =>
    obtain ⟨hk, hpos⟩ := Option.filter_eq_some_iff.1 hfound
    have hpos : 0 < k := of_decide_eq_true hpos
    have hfigure_k : figure k := (hfigure k).2 hk
    rw [Option.getD_some]
    constructor
    · intro h
      cases h with
      | here h _ => exact Option.some.inj (hk.symm.trans ((hfigure n).1 h))
      | later h _ => exact absurd (h k hfigure_k) (Nat.ne_of_gt hpos)
    · rintro rfl
      exact .here hfigure_k hpos

theorem firstPositive_nil_iff : FirstPositive [] n ↔ 0 = n := by
  constructor
  · rintro ⟨⟩
    rfl
  · rintro rfl
    exact .none

/-- The last figure may be zero, since nothing but zero is left after it. -/
theorem firstPositive_singleton_iff (hfigure : ∀ m, figure m ↔ found = some m) :
    FirstPositive [figure] n ↔ found.getD 0 = n := by
  rw [firstPositive_cons_iff hfigure fun _ => firstPositive_nil_iff]
  cases found with
  | none => rfl
  | some k =>
    rw [Option.filter_some, Option.getD_some]
    split
    · rfl
    · next hk =>
      have hzero : k = 0 := by simpa using hk
      rw [Option.getD_none, hzero]

end

/-! ### Costs -/

theorem map_toNat_positive? (figure : Option UInt64) :
    (positive? figure).map (·.toNat) = (figure.map (·.toNat)).filter (0 < ·) := by
  rw [Option.filter_map, positive?]
  rfl

namespace PendingRecord

/-- What the record says of the gas: the gas used, the gas limit, and the limit by its older
name. -/
def gasFigures (r : PendingRecord) : List (Nat → Prop) :=
  [fun n => r.gasUsed.map (·.toNat) = some n, Quantity.Says (2 ^ 64) r.gasLimit,
    Quantity.Says (2 ^ 64) r.gas]

/-- What the record says of the price: the gas price and the highest fee. -/
def priceFigures (r : PendingRecord) : List (Nat → Prop) :=
  [Quantity.Says (2 ^ 256) r.gasPrice, Quantity.Says (2 ^ 256) r.maxFee]

variable (r : PendingRecord)

theorem toNat_gasFigure : r.gasFigure.toNat =
    ((r.gasUsed.map (·.toNat)).filter (0 < ·)).getD
      ((((r.gasLimit.bind Quantity.readWord?).map (·.toNat)).filter (0 < ·)).getD
        (((r.gas.bind Quantity.readWord?).map (·.toNat)).getD 0)) := by
  have hgetD : ∀ figure : Option UInt64, (figure.getD 0).toNat = (figure.map (·.toNat)).getD 0 :=
    fun figure => (Option.getD_map (·.toNat) 0 figure).symm
  rw [gasFigure, hgetD, Option.map_or, Option.map_or, map_toNat_positive?, map_toNat_positive?,
    Option.getD_or, Option.getD_or]

theorem toNat_price : r.price.toNat =
    (((r.gasPrice.bind Quantity.read?).map (·.toNat)).filter (0 < ·)).getD
      (((r.maxFee.bind Quantity.read?).map (·.toNat)).getD 0) := by
  rw [price, ← Quantity.toNat_readOrZero r.maxFee]
  cases h : r.gasPrice.bind Quantity.read? with
  | none =>
    rw [Quantity.readOrZero, h, Option.getD_none, if_pos rfl]
    rfl
  | some amount =>
    rw [Quantity.readOrZero, h, Option.getD_some, Option.map_some, Option.filter_some]
    by_cases hzero : amount = Wei.zero
    · subst hzero
      rfl
    · have hpos : 0 < amount.toNat := Nat.pos_of_ne_zero fun h => hzero (Wei.ext h)
      rw [if_neg hzero, if_pos (decide_eq_true hpos), Option.getD_some]

theorem toNat_gasFigure_eq_iff {n : Nat} :
    r.gasFigure.toNat = n ↔ FirstPositive r.gasFigures n := by
  rw [toNat_gasFigure, gasFigures]
  refine (firstPositive_cons_iff (fun _ => Iff.rfl) fun _ => ?_).symm
  refine firstPositive_cons_iff (fun _ => Quantity.says_iff_readWord?) fun _ => ?_
  exact firstPositive_singleton_iff fun _ => Quantity.says_iff_readWord?

theorem toNat_price_eq_iff {n : Nat} : r.price.toNat = n ↔ FirstPositive r.priceFigures n := by
  rw [toNat_price, priceFigures]
  refine (firstPositive_cons_iff (fun _ => Quantity.says_iff_read?) fun _ => ?_).symm
  exact firstPositive_singleton_iff fun _ => Quantity.says_iff_read?

/-- The gas and the price of a record's cost are the first positive ones of what the record says,
and the gas is zero exactly if no figure is positive. The total is the exact one of the gas at its
price and the value, which counts as zero if it is none, unless that is above the largest amount. -/
theorem cost_iff_firstPositive (r : PendingRecord) :
    (∀ n, r.cost.gas.toNat = n ↔ FirstPositive r.gasFigures n) ∧
    (r.cost.gas = 0 ↔ ∀ figure ∈ r.gasFigures, ∀ n, figure n → n = 0) ∧
    (∀ n, r.cost.price.toNat = n ↔ FirstPositive r.priceFigures n) ∧
    (∀ n, r.cost.value.toNat = n ↔ Quantity.CountsAs r.value n) ∧
    r.cost.total.toNat =
      min (r.cost.value.toNat + r.cost.gas.toNat * r.cost.price.toNat) (2 ^ 256 - 1) := by
  refine ⟨fun n => r.toNat_gasFigure_eq_iff, ?_, fun n => r.toNat_price_eq_iff,
    fun n => Quantity.toNat_readOrZero_eq_iff, r.cost.toNat_total⟩
  rw [← firstPositive_zero_iff, ← toNat_gasFigure_eq_iff, ← UInt64.toNat_inj]
  rfl

end PendingRecord

end Countersign
