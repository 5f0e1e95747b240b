import Countersign.Proofs.Binary64.Rounding
import Countersign.Settings.Basic
import Mathlib.Data.List.Forall2

/-! Which settings make a gas policy, and which one. -/

namespace Countersign

open Binary64

/-! ### Ratios -/

namespace GasRatio

variable {x : Binary64} {r : GasRatio}

/-- A number that is neither negative nor infinite and comes to a whole number of thousandths from
one on and below 2^32. -/
structure Fits (x : Binary64) : Prop where
  finite : x.isFinite = true
  nonneg : 0 ≤ x.value
  pos : 1 ≤ round (1000 * x.value)
  lt : round (1000 * x.value) ≤ 2 ^ 32 - 1

/-- The least number that comes to a thousandth is 0.0005. -/
theorem parts_one : Parts ⟨0x3f40624dd2f1a9fb⟩ ⟨0x3f40624dd2f1a9fc⟩ 1000 1 :=
  ⟨by decide +kernel, by decide +kernel, by decide +kernel, by decide +kernel, by decide +kernel⟩

/-- The least number that comes to too many thousandths is 4294967.2955. -/
theorem parts_size : Parts ⟨0x4150624dd2e978d4⟩ ⟨0x4150624dd2e978d5⟩ 1000 UInt32.size :=
  ⟨by decide +kernel, by decide +kernel, by decide +kernel, by decide +kernel, by decide +kernel⟩

theorem fits_iff (hfinite : x.isFinite = true) (hnonneg : 0 ≤ x.value) :
    Fits x ↔ 1 ≤ (x.times 1000).roundHalfUp ∧ (x.times 1000).roundHalfUp < UInt32.size := by
  have hpos := parts_one.le_roundHalfUp_times_iff x
  have hlt := parts_size.le_roundHalfUp_times_iff x
  rw [abs_of_nonneg hnonneg] at hpos hlt
  push_cast at hpos hlt
  rw [hpos, ← not_le, hlt]
  have hsize : ((UInt32.size : ℕ) : ℤ) = 2 ^ 32 := rfl
  constructor
  · exact fun h => ⟨h.pos, by have := h.lt; omega⟩
  · exact fun ⟨hpos, hlt⟩ => ⟨hfinite, hnonneg, hpos, by omega⟩

/-- A number that fits is a ratio, and no other is. -/
theorem ofBinary64?_eq_some_iff :
    ofBinary64? x = some r ↔ Fits x ∧ r.milli.toNat = (x.times 1000).roundHalfUp := by
  constructor
  · intro h
    unfold ofBinary64? at h
    split at h
    · next hpos =>
      rw [Bool.and_eq_true] at hpos
      have hvalue : 0 < x.value := by
        rw [← value_zero, ← lt_iff_value_lt (by decide) hpos.1]
        exact hpos.2
      dsimp only at h
      split at h
      · next hrange =>
        cases h
        exact ⟨(fits_iff hpos.1 hvalue.le).2 hrange, UInt32.toNat_ofNat_of_lt' hrange.2⟩
      · cases h
    · cases h
  · rintro ⟨hfits, hmilli⟩
    have hrange := (fits_iff hfits.finite hfits.nonneg).1 hfits
    have hvalue : zero.value < x.value := by
      refine value_zero ▸ lt_of_le_of_ne hfits.nonneg fun hzero => ?_
      have hpos := hfits.pos
      rw [← hzero, mul_zero, round_zero] at hpos
      omega
    have hpos := (lt_iff_value_lt (by decide) hfits.finite).2 hvalue
    rw [ofBinary64?, hfits.finite, hpos, Bool.and_self, if_pos rfl]
    dsimp only
    rw [if_pos hrange, ← hmilli, UInt32.ofNat_toNat]

theorem exists_ofBinary64?_iff : (∃ r, ofBinary64? x = some r) ↔ Fits x := by
  constructor
  · rintro ⟨r, h⟩
    exact (ofBinary64?_eq_some_iff.1 h).1
  · intro hfits
    have hlt := ((fits_iff hfits.finite hfits.nonneg).1 hfits).2
    exact ⟨⟨UInt32.ofNat _⟩, ofBinary64?_eq_some_iff.2
      ⟨hfits, UInt32.toNat_ofNat_of_lt' hlt⟩⟩

theorem roundsTo_of_ofBinary64? (h : ofBinary64? x = some r) : x.RoundsTo 1000 r.milli.toNat := by
  obtain ⟨hfits, hmilli⟩ := ofBinary64?_eq_some_iff.1 h
  have hlt := ((fits_iff hfits.finite hfits.nonneg).1 hfits).2
  -- The product is finite because that of the greatest number that fits is.
  have hbelow := (parts_size.le_low_or_high_le x).resolve_right fun hle =>
    Nat.not_le.2 hlt (Nat.le_trans parts_size.le_roundHalfUp_high (roundHalfUp_times_mono hle))
  rw [hmilli]
  exact roundsTo_times (isFinite_times_of_le hbelow (by decide +kernel)) hfits.nonneg

end GasRatio

/-! ### What the parts of a policy are made of -/

theorem bind_eq_ok_iff {ε α β : Type} {x : Except ε α} {f : α → Except ε β} {b : β} :
    x >>= f = .ok b ↔ ∃ a, x = .ok a ∧ f a = .ok b := by
  cases x with
  | error e => exact ⟨nofun, nofun⟩
  | ok a => exact ⟨fun h => ⟨a, rfl, h⟩, fun ⟨_, rfl, h⟩ => h⟩

theorem Parameter.default?_isUsable (p : Parameter) :
    ∃ x, p.default? = some x ∧ x.isFinite = true ∧ x.lt .zero = false := by
  cases p <;> exact ⟨_, rfl, by decide +kernel, by decide +kernel⟩

namespace Settings

variable {s : Settings} {p : Parameter} {x : Binary64} {r careful : GasRatio}

/-- What a parameter is set to, or else its default; every parameter has one. -/
def number (s : Settings) (p : Parameter) : Binary64 := ((s.set? p).or p.default?).getD .zero

theorem resolve_eq_ok_iff : s.resolve p = .ok x ↔
    (s.number p).isFinite = true ∧ 0 ≤ (s.number p).value ∧ s.number p = x := by
  unfold resolve Parameter.resolve number
  cases s.set? p with
  | none =>
    obtain ⟨y, hy, hfinite, hlt⟩ := p.default?_isUsable
    have hnonneg : 0 ≤ y.value := by
      rw [← value_zero, ← not_lt, ← lt_iff_value_lt hfinite (by decide), hlt]
      exact Bool.false_ne_true
    rw [hy, Option.none_or, Option.getD_some]
    simp [Except.mapError, hfinite, hnonneg]
  | some y =>
    rw [Option.some_or, Option.getD_some]
    by_cases hfinite : y.isFinite = true
    · have hnonneg := lt_iff_value_lt hfinite (y := .zero) (by decide)
      rw [value_zero] at hnonneg
      by_cases hlt : y.lt .zero = true
      · simp [Except.mapError, hfinite, hlt, hnonneg.1 hlt]
      · simp [Except.mapError, hfinite, hlt, not_lt.1 (mt hnonneg.2 hlt)]
    · simp [Except.mapError, hfinite]

theorem ratioOf_eq_ok_iff {name : String} :
    ratioOf name x = .ok r ↔ GasRatio.ofBinary64? x = some r := by
  unfold ratioOf
  split <;> simp_all

theorem ratio_eq_ok_iff : s.ratio p = .ok r ↔ GasRatio.ofBinary64? (s.number p) = some r := by
  rw [ratio, bind_eq_ok_iff]
  constructor
  · rintro ⟨x, hx, h⟩
    obtain ⟨-, -, rfl⟩ := resolve_eq_ok_iff.1 hx
    exact ratioOf_eq_ok_iff.1 h
  · intro h
    have hfits := (GasRatio.ofBinary64?_eq_some_iff.1 h).1
    exact ⟨_, resolve_eq_ok_iff.2 ⟨hfits.finite, hfits.nonneg, rfl⟩, ratioOf_eq_ok_iff.2 h⟩

theorem gas_eq_ok_iff {w : UInt64} :
    s.gas p = .ok w ↔ (s.number p).isFinite = true ∧ (s.number p).value = w.toNat := by
  rw [gas, bind_eq_ok_iff]
  constructor
  · rintro ⟨x, hx, h⟩
    obtain ⟨hfinite, hnonneg, rfl⟩ := resolve_eq_ok_iff.1 hx
    refine ⟨hfinite, (value_eq_natCast_iff hfinite hnonneg).2 ?_⟩
    split at h
    · next w' hw =>
      cases h
      obtain ⟨hwhole, hw⟩ := Option.ite_none_right_eq_some.1 hw
      exact ⟨hwhole, Word.ofNat?_eq_some_iff.1 hw⟩
    · cases h
  · rintro ⟨hfinite, hvalue⟩
    have hnonneg : 0 ≤ (s.number p).value := hvalue ▸ Nat.cast_nonneg _
    obtain ⟨hwhole, hw⟩ := (value_eq_natCast_iff hfinite hnonneg).1 hvalue
    refine ⟨_, resolve_eq_ok_iff.2 ⟨hfinite, hnonneg, rfl⟩, ?_⟩
    rw [if_pos hwhole, Word.ofNat?_eq_some_iff.2 hw]
    rfl

theorem headroomPercent_eq_ok_iff {percent : UInt64} : s.headroomPercent = .ok percent ↔
    (s.number .headroom).isFinite = true ∧
      (0 < (s.number .headroom).value ∧ (s.number .headroom).value ≤ 1) ∧
      percent = Word.cap ((s.number .headroom).times 100).roundHalfUp := by
  have hone : (Binary64.ofInt 1).value = 1 := (value_ofInt (by decide)).trans Int.cast_one
  have hrange : ∀ {x : Binary64}, x.isFinite = true →
      ((x.le .zero || (Binary64.ofInt 1).lt x) = true ↔ ¬(0 < x.value ∧ x.value ≤ 1)) := by
    intro x hfinite
    rw [Bool.or_eq_true, le_iff_value_le hfinite (by decide),
      lt_iff_value_lt (by decide +kernel) hfinite, value_zero, hone, not_and_or, not_lt, not_le]
  rw [headroomPercent, bind_eq_ok_iff]
  constructor
  · rintro ⟨x, hx, h⟩
    obtain ⟨hfinite, -, rfl⟩ := resolve_eq_ok_iff.1 hx
    split at h
    · cases h
    · next hout =>
      cases h
      exact ⟨hfinite, not_not.1 (mt (hrange hfinite).2 hout), rfl⟩
  · rintro ⟨hfinite, hin, rfl⟩
    refine ⟨_, resolve_eq_ok_iff.2 ⟨hfinite, hin.1.le, rfl⟩, ?_⟩
    rw [if_neg (mt (hrange hfinite).1 (not_not.2 hin))]
    rfl

/-- A share above zero and up to one comes to a hundred percent at most. -/
theorem times_hundred_of_headroom
    (h : 0 < (s.number .headroom).value ∧ (s.number .headroom).value ≤ 1) :
    ((s.number .headroom).times 100).isFinite = true ∧
      ((s.number .headroom).times 100).roundHalfUp ≤ 100 := by
  have hone : (Binary64.ofInt 1).value = 1 := (value_ofInt (by decide)).trans Int.cast_one
  have hle : (s.number .headroom).magnitude ≤ (Binary64.ofInt 1).magnitude := by
    have habs : |(s.number .headroom).value| ≤ |(Binary64.ofInt 1).value| := by
      rw [hone, abs_one, abs_of_pos h.1]
      exact h.2
    rwa [abs_value, abs_value, div_le_div_iff_of_pos_right one_pos, Nat.cast_le] at habs
  have hhundred : ((Binary64.ofInt 1).times 100).roundHalfUp = 100 := by decide +kernel
  exact ⟨isFinite_times_of_le hle (by decide +kernel),
    (roundHalfUp_times_mono hle).trans_eq hhundred⟩

theorem toNat_headroomPercent {percent : UInt64} (h : s.headroomPercent = .ok percent) :
    percent.toNat = ((s.number .headroom).times 100).roundHalfUp := by
  obtain ⟨-, hrange, rfl⟩ := headroomPercent_eq_ok_iff.1 h
  rw [Word.toNat_cap]
  exact Nat.min_eq_left (Nat.le_trans (times_hundred_of_headroom hrange).2 (by decide))

theorem roundsTo_headroomPercent {percent : UInt64} (h : s.headroomPercent = .ok percent) :
    (s.number .headroom).RoundsTo 100 percent.toNat := by
  obtain ⟨-, hrange, -⟩ := headroomPercent_eq_ok_iff.1 h
  rw [toNat_headroomPercent h]
  exact roundsTo_times (times_hundred_of_headroom hrange).1 hrange.1.le

/-! ### The ratios of single chains -/

theorem mapM_eq_ok_iff {ε α β : Type} {f : α → Except ε β} {xs : List α} {ys : List β} :
    xs.mapM f = .ok ys ↔ List.Forall₂ (fun x y => f x = .ok y) xs ys := by
  induction xs generalizing ys with
  | nil =>
    rw [List.mapM_nil, List.forall₂_nil_left_iff]
    exact ⟨fun h => (Except.ok.inj h).symm, fun h => h ▸ rfl⟩
  | cons x xs ih =>
    rw [List.mapM_cons, bind_eq_ok_iff, List.forall₂_cons_left_iff]
    constructor
    · rintro ⟨y, hy, h⟩
      obtain ⟨ys', hys, h⟩ := bind_eq_ok_iff.1 h
      cases h
      exact ⟨y, ys', hy, ih.1 hys, rfl⟩
    · rintro ⟨y, ys', hy, hys, rfl⟩
      exact ⟨y, hy, bind_eq_ok_iff.2 ⟨ys', ih.2 hys, rfl⟩⟩

/-- The same chains as in the settings, with ratios in place of numbers. -/
def IsConverted (rows : List (UInt64 × Binary64)) (own : List (UInt64 × GasRatio)) : Prop :=
  List.Forall₂ (fun row r => row.1 = r.1 ∧ GasRatio.ofBinary64? row.2 = some r.2) rows own

theorem ratioTable_eq_ok_iff {table : Table UInt64 GasRatio} :
    s.ratioTable careful = .ok table ↔ ∃ own, IsConverted s.chainRatios.rows own ∧
      table = Table.ofList (((s.carefulChains.getD GasPolicy.carefulChains).map
        fun chain => (chain, careful)) ++ own) := by
  have hrow : ∀ (row : UInt64 × Binary64) (r : UInt64 × GasRatio),
      (ratioOf chainRatiosName row.2 >>= fun ratio => pure (row.1, ratio)) = Except.ok r ↔
        row.1 = r.1 ∧ GasRatio.ofBinary64? row.2 = some r.2 := by
    intro row r
    rw [bind_eq_ok_iff]
    constructor
    · rintro ⟨ratio, hratio, h⟩
      cases h
      exact ⟨rfl, ratioOf_eq_ok_iff.1 hratio⟩
    · rintro ⟨hchain, hratio⟩
      exact ⟨r.2, ratioOf_eq_ok_iff.2 hratio, by rw [hchain]; rfl⟩
  rw [ratioTable]
  simp only [bind_eq_ok_iff, mapM_eq_ok_iff, hrow]
  constructor
  · rintro ⟨own, hown, h⟩
    cases h
    exact ⟨own, hown, rfl⟩
  · rintro ⟨own, hown, rfl⟩
    exact ⟨own, hown, rfl⟩

theorem IsConverted.map_fst {rows : List (UInt64 × Binary64)} {own : List (UInt64 × GasRatio)}
    (h : IsConverted rows own) : rows.map (·.1) = own.map (·.1) := by
  induction h with
  | nil => rfl
  | cons hrow _ ih => rw [List.map_cons, List.map_cons, hrow.1, ih]

theorem IsConverted.exists_mem {rows : List (UInt64 × Binary64)} {own : List (UInt64 × GasRatio)}
    (h : IsConverted rows own) {chain : UInt64} (hrow : (chain, x) ∈ rows) :
    ∃ r, (chain, r) ∈ own ∧ GasRatio.ofBinary64? x = some r := by
  induction h with
  | nil => cases hrow
  | @cons row r rows own hhead _ ih =>
    rcases List.mem_cons.1 hrow with rfl | hrow
    · have hchain : chain = r.1 := hhead.1
      exact ⟨r.2, hchain ▸ List.mem_cons_self, hhead.2⟩
    · obtain ⟨r, hr, hratio⟩ := ih hrow
      exact ⟨r, List.mem_cons_of_mem _ hr, hratio⟩

theorem exists_isConverted_iff {rows : List (UInt64 × Binary64)} :
    (∃ own, IsConverted rows own) ↔ ∀ row ∈ rows, ∃ r, GasRatio.ofBinary64? row.2 = some r := by
  constructor
  · rintro ⟨own, h⟩ row hrow
    have hpair : (row.1, row.2) ∈ rows := hrow
    obtain ⟨r, -, hratio⟩ := h.exists_mem hpair
    exact ⟨r, hratio⟩
  · intro h
    induction rows with
    | nil => exact ⟨[], .nil⟩
    | cons row rows ih =>
      obtain ⟨r, hr⟩ := h row List.mem_cons_self
      obtain ⟨own, hown⟩ := ih fun row hrow => h row (List.mem_cons_of_mem _ hrow)
      exact ⟨(row.1, r) :: own, .cons ⟨rfl, hr⟩ hown⟩

/-- What is put under every chain of a list is found there. -/
theorem get?_foldl_careful (chains : List UInt64) (careful : GasRatio)
    (t : Table UInt64 GasRatio) (chain : UInt64) :
    ((chains.map fun c => (c, careful)).foldl (fun t e => t.insert e.1 e.2) t).get? chain =
      if chain ∈ chains then some careful else t.get? chain := by
  induction chains generalizing t with
  | nil => simp
  | cons c chains ih =>
    rw [List.map_cons, List.foldl_cons, ih, Table.get?_insert]
    by_cases hc : c = chain
    · simp [hc]
    · simp [hc, Ne.symm hc]

theorem get?_ofList_careful_append {t : Table UInt64 Binary64} {own : List (UInt64 × GasRatio)}
    (h : IsConverted t.rows own) (chains : List UInt64) (careful : GasRatio) (chain : UInt64) :
    (∀ x, t.get? chain = some x → ∃ r, GasRatio.ofBinary64? x = some r ∧
      (Table.ofList (chains.map (fun c => (c, careful)) ++ own)).get? chain = some r) ∧
    (t.get? chain = none →
      (Table.ofList (chains.map (fun c => (c, careful)) ++ own)).get? chain =
        if chain ∈ chains then some careful else none) := by
  have hascending : own.Pairwise fun a b => compare a.1 b.1 = .lt := by
    have hkeys : (t.rows.map (·.1)).Pairwise fun a b => compare a b = .lt :=
      List.pairwise_map.2 t.ascending
    rw [h.map_fst] at hkeys
    exact List.pairwise_map.1 hkeys
  -- The careful chains are put in first, so the rows of single chains replace theirs.
  let u : Table UInt64 GasRatio := ⟨own, hascending⟩
  have hget : (Table.ofList (chains.map (fun c => (c, careful)) ++ own)).get? chain =
      (u.get? chain).or (if chain ∈ chains then some careful else none) := by
    rw [Table.ofList, List.foldl_append, Table.get?_foldl_insert _ u, get?_foldl_careful]
    rfl
  refine ⟨fun x hx => ?_, fun hnone => ?_⟩
  · obtain ⟨r, hr, hratio⟩ := h.exists_mem (Table.get?_eq_some_iff.1 hx)
    have hu : u.get? chain = some r := Table.get?_eq_some_iff.2 hr
    exact ⟨r, hratio, by rw [hget, hu, Option.some_or]⟩
  · have hkeys : u.keys = t.keys := h.map_fst.symm
    have hu : u.get? chain = none := by
      rw [← Option.not_isSome_iff_eq_none, ← Table.contains_eq_isSome_get?,
        Table.contains_iff_mem_keys] at *
      rwa [hkeys]
    rw [hget, hu, Option.none_or]

/-! ### The policy -/

variable {policy : GasPolicy}

theorem gasPolicy_eq_ok_iff : s.gasPolicy = .ok policy ↔
    s.ratio .defaultRatio = .ok policy.defaultRatio ∧
    (∃ careful, s.ratio .carefulRatio = .ok careful ∧
      s.ratioTable careful = .ok policy.chainRatios) ∧
    s.headroomPercent = .ok policy.headroomPercent ∧
    s.gas .minimumGasLimit = .ok policy.minimumGasLimit ∧
    s.gas .fallbackGasLimit = .ok policy.fallbackGasLimit ∧
    s.ratio .lowBalanceCap = .ok policy.lowBalanceCap := by
  unfold gasPolicy
  constructor
  · intro h
    obtain ⟨defaultRatio, hdefault, h⟩ := bind_eq_ok_iff.1 h
    obtain ⟨careful, hcareful, h⟩ := bind_eq_ok_iff.1 h
    obtain ⟨table, htable, h⟩ := bind_eq_ok_iff.1 h
    obtain ⟨percent, hpercent, h⟩ := bind_eq_ok_iff.1 h
    obtain ⟨minimum, hminimum, h⟩ := bind_eq_ok_iff.1 h
    obtain ⟨fallback, hfallback, h⟩ := bind_eq_ok_iff.1 h
    obtain ⟨cap, hcap, h⟩ := bind_eq_ok_iff.1 h
    cases h
    exact ⟨hdefault, ⟨careful, hcareful, htable⟩, hpercent, hminimum, hfallback, hcap⟩
  · rintro ⟨hdefault, ⟨careful, hcareful, htable⟩, hpercent, hminimum, hfallback, hcap⟩
    rw [hdefault, hcareful, hpercent, hminimum, hfallback, hcap]
    refine bind_eq_ok_iff.2 ⟨_, rfl, bind_eq_ok_iff.2 ⟨_, rfl, ?_⟩⟩
    rw [htable]
    rfl

/-- Every number of the settings is within its range. -/
structure Usable (s : Settings) : Prop where
  finite : ∀ p, (s.number p).isFinite = true
  nonneg : ∀ p, 0 ≤ (s.number p).value
  ratio : ∀ p ∈ [Parameter.defaultRatio, .carefulRatio, .lowBalanceCap],
    GasRatio.Fits (s.number p)
  chainRatio : ∀ row ∈ s.chainRatios.rows, GasRatio.Fits row.2
  headroom : 0 < (s.number .headroom).value ∧ (s.number .headroom).value ≤ 1
  gas : ∀ p ∈ [Parameter.minimumGasLimit, .fallbackGasLimit],
    ∃ n : ℕ, n < 2 ^ 64 ∧ (s.number p).value = n

/-- The number for the ratio on a chain: its own, or the one for careful chains, or the default. -/
def chainNumber (s : Settings) (chain : UInt64) : Binary64 :=
  match s.chainRatios.get? chain with
  | some x => x
  | none =>
    if chain ∈ s.carefulChains.getD [1284, 1285, 1287] then s.number .carefulRatio
    else s.number .defaultRatio

/-- The policy has the figures of the settings: ratios in thousandths, the headroom in percent, and
gas as it is. -/
structure Makes (s : Settings) (policy : GasPolicy) : Prop where
  ratioFor : ∀ chain, (s.chainNumber chain).RoundsTo 1000 (policy.ratioFor chain).milli.toNat
  headroomPercent : (s.number .headroom).RoundsTo 100 policy.headroomPercent.toNat
  lowBalanceCap : (s.number .lowBalanceCap).RoundsTo 1000 policy.lowBalanceCap.milli.toNat
  minimumGasLimit : (policy.minimumGasLimit.toNat : ℚ) = (s.number .minimumGasLimit).value
  fallbackGasLimit : (policy.fallbackGasLimit.toNat : ℚ) = (s.number .fallbackGasLimit).value

theorem exists_ratio_iff : (∃ r, s.ratio p = .ok r) ↔ GasRatio.Fits (s.number p) := by
  simp only [ratio_eq_ok_iff]
  exact GasRatio.exists_ofBinary64?_iff

theorem exists_gas_iff : (∃ w, s.gas p = .ok w) ↔
    (s.number p).isFinite = true ∧ ∃ n : ℕ, n < 2 ^ 64 ∧ (s.number p).value = n := by
  simp only [gas_eq_ok_iff]
  constructor
  · rintro ⟨w, hfinite, hvalue⟩
    exact ⟨hfinite, w.toNat, w.toNat_lt, hvalue⟩
  · rintro ⟨hfinite, n, hn, hvalue⟩
    exact ⟨UInt64.ofNatLT n hn, hfinite, by rw [hvalue, UInt64.toNat_ofNatLT]⟩

theorem exists_headroomPercent_iff : (∃ percent, s.headroomPercent = .ok percent) ↔
    (s.number .headroom).isFinite = true ∧
      0 < (s.number .headroom).value ∧ (s.number .headroom).value ≤ 1 := by
  simp only [headroomPercent_eq_ok_iff]
  constructor
  · exact fun ⟨_, hfinite, hrange, _⟩ => ⟨hfinite, hrange⟩
  · exact fun ⟨hfinite, hrange⟩ => ⟨_, hfinite, hrange, rfl⟩

theorem exists_ratioTable_iff : (∃ table, s.ratioTable careful = .ok table) ↔
    ∀ row ∈ s.chainRatios.rows, GasRatio.Fits row.2 := by
  simp only [ratioTable_eq_ok_iff, ← GasRatio.exists_ofBinary64?_iff, ← exists_isConverted_iff]
  constructor
  · exact fun ⟨_, own, hown, _⟩ => ⟨own, hown⟩
  · exact fun ⟨own, hown⟩ => ⟨_, own, hown, rfl⟩

theorem usable_of_gasPolicy (h : s.gasPolicy = .ok policy) : s.Usable := by
  obtain ⟨hdefault, ⟨careful, hcareful, htable⟩, hpercent, hminimum, hfallback, hcap⟩ :=
    gasPolicy_eq_ok_iff.1 h
  have hdefault := exists_ratio_iff.1 ⟨_, hdefault⟩
  have hcareful := exists_ratio_iff.1 ⟨_, hcareful⟩
  have hcap := exists_ratio_iff.1 ⟨_, hcap⟩
  obtain ⟨hpercent, hrange⟩ := exists_headroomPercent_iff.1 ⟨_, hpercent⟩
  obtain ⟨hminimum, minimum, hmin⟩ := exists_gas_iff.1 ⟨_, hminimum⟩
  obtain ⟨hfallback, fallback, hfall⟩ := exists_gas_iff.1 ⟨_, hfallback⟩
  refine ⟨fun p => ?_, fun p => ?_, ?_, exists_ratioTable_iff.1 ⟨_, htable⟩, hrange, ?_⟩
  · cases p with
    | defaultRatio => exact hdefault.finite
    | minimumGasLimit => exact hminimum
    | fallbackGasLimit => exact hfallback
    | lowBalanceCap => exact hcap.finite
    | headroom => exact hpercent
    | carefulRatio => exact hcareful.finite
  · cases p with
    | defaultRatio => exact hdefault.nonneg
    | minimumGasLimit => exact hmin.2 ▸ Nat.cast_nonneg minimum
    | fallbackGasLimit => exact hfall.2 ▸ Nat.cast_nonneg fallback
    | lowBalanceCap => exact hcap.nonneg
    | headroom => exact hrange.1.le
    | carefulRatio => exact hcareful.nonneg
  · simpa using ⟨hdefault, hcareful, hcap⟩
  · simpa using ⟨⟨minimum, hmin⟩, fallback, hfall⟩

theorem exists_gasPolicy_of_usable (h : s.Usable) : ∃ policy, s.gasPolicy = .ok policy := by
  have hratio := fun p hp => exists_ratio_iff.2 (h.ratio p hp)
  have hgas := fun p hp => exists_gas_iff.2 ⟨h.finite p, h.gas p hp⟩
  obtain ⟨defaultRatio, hdefault⟩ := hratio .defaultRatio (by simp)
  obtain ⟨careful, hcareful⟩ := hratio .carefulRatio (by simp)
  obtain ⟨lowBalanceCap, hcap⟩ := hratio .lowBalanceCap (by simp)
  obtain ⟨chainRatios, htable⟩ := exists_ratioTable_iff.2 h.chainRatio
  obtain ⟨headroomPercent, hpercent⟩ := exists_headroomPercent_iff.2 ⟨h.finite .headroom, h.headroom⟩
  obtain ⟨minimumGasLimit, hminimum⟩ := hgas .minimumGasLimit (by simp)
  obtain ⟨fallbackGasLimit, hfallback⟩ := hgas .fallbackGasLimit (by simp)
  let policy : GasPolicy := ⟨defaultRatio, chainRatios, minimumGasLimit, fallbackGasLimit,
    lowBalanceCap, headroomPercent⟩
  exact ⟨policy, gasPolicy_eq_ok_iff.2
    ⟨hdefault, ⟨careful, hcareful, htable⟩, hpercent, hminimum, hfallback, hcap⟩⟩

theorem roundsTo_ratioFor (hdefault : s.ratio .defaultRatio = .ok policy.defaultRatio)
    (hcareful : s.ratio .carefulRatio = .ok careful)
    (htable : s.ratioTable careful = .ok policy.chainRatios) (chain : UInt64) :
    (s.chainNumber chain).RoundsTo 1000 (policy.ratioFor chain).milli.toNat := by
  obtain ⟨own, hown, htable⟩ := ratioTable_eq_ok_iff.1 htable
  obtain ⟨hsome, hnone⟩ := get?_ofList_careful_append hown
    (s.carefulChains.getD [1284, 1285, 1287]) careful chain
  rw [GasPolicy.carefulChains] at htable
  rw [← htable] at hsome hnone
  unfold chainNumber GasPolicy.ratioFor
  split
  · next x hx =>
    obtain ⟨r, hr, hget⟩ := hsome x hx
    rw [hget]
    exact GasRatio.roundsTo_of_ofBinary64? hr
  · next hx =>
    rw [hnone hx]
    split
    · exact GasRatio.roundsTo_of_ofBinary64? (ratio_eq_ok_iff.1 hcareful)
    · exact GasRatio.roundsTo_of_ofBinary64? (ratio_eq_ok_iff.1 hdefault)

/-- Settings whose numbers are all within their ranges make a gas policy with their figures, and no
others make one. -/
theorem gasPolicy_ranges (s : Settings) :
    ((∃ policy, s.gasPolicy = .ok policy) ↔ s.Usable) ∧
      ∀ policy, s.gasPolicy = .ok policy → s.Makes policy := by
  refine ⟨⟨fun ⟨_, h⟩ => usable_of_gasPolicy h, exists_gasPolicy_of_usable⟩, fun policy h => ?_⟩
  obtain ⟨hdefault, ⟨careful, hcareful, htable⟩, hpercent, hminimum, hfallback, hcap⟩ :=
    gasPolicy_eq_ok_iff.1 h
  exact ⟨roundsTo_ratioFor hdefault hcareful htable, roundsTo_headroomPercent hpercent,
    GasRatio.roundsTo_of_ofBinary64? (ratio_eq_ok_iff.1 hcap),
    (gas_eq_ok_iff.1 hminimum).2.symm, (gas_eq_ok_iff.1 hfallback).2.symm⟩

/-- Settings with a ratio of 1.25 for 1284, which is a careful chain too. -/
def ownRatioSettings : Settings :=
  { standard with chainRatios := Table.ofList [(1284, ⟨0x3ff4000000000000⟩)] }

theorem gasPolicy_ranges_ownRatio : ∃ policy, ownRatioSettings.gasPolicy = .ok policy ∧
    ownRatioSettings.Makes policy ∧ policy.ratioFor 1284 = ⟨1250⟩ ∧
    policy.ratioFor 1285 = ⟨2000⟩ ∧ policy.ratioFor 1 = ⟨1500⟩ := by
  have h : ownRatioSettings.gasPolicy = .ok ⟨⟨1500⟩,
      Table.ofList [(1284, ⟨1250⟩), (1285, ⟨2000⟩), (1287, ⟨2000⟩)], 21000, 1000000, ⟨1500⟩, 95⟩ := by
    decide +kernel
  exact ⟨_, h, (gasPolicy_ranges ownRatioSettings).2 _ h, by decide +kernel, by decide +kernel,
    by decide +kernel⟩

end Settings
end Countersign
