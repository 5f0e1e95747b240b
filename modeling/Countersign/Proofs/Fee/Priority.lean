import Countersign.Fee.Priority
import Mathlib.Data.List.Nodup

/-! Priority fees in a market. Main statements: `market_order_and_fee` for a market that offers each
kind of level once, and `priorityFee_le_price` for when a fee stays within its level's price. -/

namespace Countersign.FeeLevel

variable {levels levels' : List FeeLevel} {target cheapest : FeeLevel} {c c' fee : Wei}
  {chain : UInt64} {paysFull : Bool}

/-! ### The lowest price -/

/-- The lowest price in a market, custom levels apart. -/
structure IsLowest (levels : List FeeLevel) (c : Wei) : Prop where
  offered : ∃ l ∈ levels, l.kind ≠ .custom ∧ l.price = c
  least : ∀ l ∈ levels, l.kind ≠ .custom → c ≤ l.price

theorem IsLowest.unique (h : IsLowest levels c) (h' : IsLowest levels c') : c = c' := by
  obtain ⟨l, hl, hkind, rfl⟩ := h.offered
  obtain ⟨l', hl', hkind', rfl⟩ := h'.offered
  exact Wei.ext (Nat.le_antisymm (h.least l' hl' hkind') (h'.least l hl hkind))

theorem IsLowest.perm (hperm : levels.Perm levels') (h : IsLowest levels c) :
    IsLowest levels' c where
  offered := by
    obtain ⟨l, hl, hprice⟩ := h.offered
    exact ⟨l, hperm.mem_iff.1 hl, hprice⟩
  least l hl := h.least l (hperm.mem_iff.2 hl)

theorem foldl_lower (best : FeeLevel) (ls : List FeeLevel) :
    ls.foldl (fun best l => if l.price < best.price then l else best) best ∈ best :: ls ∧
    ∀ l ∈ best :: ls,
      (ls.foldl (fun best l => if l.price < best.price then l else best) best).price ≤ l.price := by
  induction ls generalizing best with
  | nil => simp [Wei.le_def]
  | cons l ls ih =>
    rw [List.foldl_cons]
    split
    · next hlt =>
      obtain ⟨hmem, hle⟩ := ih l
      refine ⟨List.mem_cons_of_mem _ hmem, List.forall_mem_cons.2 ⟨?_, hle⟩⟩
      exact Nat.le_trans (hle l List.mem_cons_self) (Nat.le_of_lt hlt)
    · next hge =>
      obtain ⟨hmem, hle⟩ := ih best
      have hbest := hle best List.mem_cons_self
      refine ⟨?_, List.forall_mem_cons.2 ⟨hbest, List.forall_mem_cons.2 ⟨?_, fun m hm => ?_⟩⟩⟩
      · rcases List.mem_cons.1 hmem with h | h
        · exact List.mem_cons.2 (.inl h)
        · exact List.mem_cons_of_mem _ (List.mem_cons_of_mem _ h)
      · exact Nat.le_trans hbest (Nat.le_of_not_lt hge)
      · exact hle m (List.mem_cons_of_mem _ hm)

theorem isLowest_of_cheapest? (h : cheapest? levels = some cheapest) :
    cheapest ∈ levels ∧ cheapest.kind ≠ .custom ∧ IsLowest levels cheapest.price := by
  unfold cheapest? at h
  split at h
  · cases h
  · next best ls hfilter =>
    obtain rfl := Option.some.inj h
    obtain ⟨hmem, hle⟩ := foldl_lower best ls
    rw [← hfilter] at hmem hle
    obtain ⟨hlevel, hkind⟩ := List.mem_filter.1 hmem
    have hkind := of_decide_eq_true hkind
    exact ⟨hlevel, hkind, ⟨_, hlevel, hkind, rfl⟩,
      fun l hl hl' => hle l (List.mem_filter.2 ⟨hl, decide_eq_true hl'⟩)⟩

theorem cheapest?_eq_none_iff : cheapest? levels = none ↔ ∀ l ∈ levels, l.kind = .custom := by
  have hnil : cheapest? levels = none ↔ (levels.filter fun l => l.kind ≠ .custom) = [] := by
    unfold cheapest?
    split
    · next h => exact iff_of_true rfl h
    · next h => rw [h]; exact iff_of_false nofun nofun
  rw [hnil, List.filter_eq_nil_iff]
  simp

/-! ### The fee of a level that names none -/

/-- The fee of a level at the price `p` that names none, where the lowest price is `c`: a tenth of
the price, and above `c` four fifths of the difference, which is multiplied first. -/
def derivedFee (c p : Nat) : Nat :=
  if p < c then p / 10 else min (8 * (p - c)) (Wei.size - 1) / 10 + p / 10

theorem derivedFee_le (c p : Nat) : derivedFee c p ≤ p := by
  unfold derivedFee
  split <;> omega

theorem derivedFee_mono (c : Nat) {p p' : Nat} (h : p ≤ p') : derivedFee c p ≤ derivedFee c p' := by
  unfold derivedFee
  split <;> split <;> omega

/-- A level of the cheapest one's kind pays for no difference, which is what the formula says too if
the two have one price. -/
theorem toNat_derivedPriority (h : cheapest.kind = target.kind → cheapest.price = target.price) :
    (derivedPriority target cheapest).toNat =
      derivedFee cheapest.price.toNat target.price.toNat := by
  have hten : (Wei.ofWord 10).toNat = 10 := rfl
  have height : (Wei.ofWord 8).toNat = 8 := rfl
  have hlt := target.price.lt
  unfold derivedPriority derivedFee
  simp only [Bool.or_eq_true, decide_eq_true_eq, Wei.lt_def]
  by_cases hbelow : target.price.toNat < cheapest.price.toNat
  · rw [if_pos (.inl hbelow), if_pos hbelow, Wei.toNat_div, hten]
  · rw [if_neg hbelow]
    by_cases hkind : cheapest.kind = target.kind
    · rw [if_pos (.inr hkind), Wei.toNat_div, hten, h hkind]
      omega
    · have hgap := Wei.toNat_wrappingSub (Nat.le_of_not_lt hbelow)
      rw [if_neg (not_or.2 ⟨hbelow, hkind⟩), Wei.toNat_wrappingAdd]
      · rw [Wei.toNat_div, Wei.toNat_div, Wei.toNat_mul, hgap, hten, height, Nat.mul_comm]
      · rw [Wei.toNat_div, Wei.toNat_div, Wei.toNat_mul, hgap, hten, height]
        omega

/-! ### Where a fee comes from -/

/-- The level names no priority fee, or names zero. -/
def NamesNone (l : FeeLevel) : Prop := ∀ fee, l.priority = some fee → fee = Wei.zero

/-- The level names a priority fee, and on the chain this counts. -/
structure Names (target : FeeLevel) (chain : UInt64) (paysFull : Bool) (fee : Wei) : Prop where
  chain_eq : chain = mainnet
  paysFull_eq : paysFull = false
  named : target.priority = some fee
  ne_zero : fee ≠ Wei.zero

theorem filter_priority_eq_none_iff :
    target.priority.filter (· ≠ Wei.zero) = none ↔ NamesNone target := by
  simp [Option.filter_eq_none_iff, NamesNone]

/-- A fee is the full price, or the one that the level names, or derived from the market. -/
theorem full_or_names_or_none (target : FeeLevel) (chain : UInt64) (paysFull : Bool) :
    (chain ≠ mainnet ∨ paysFull = true) ∨ (∃ fee, Names target chain paysFull fee) ∨
      (chain = mainnet ∧ paysFull = false) ∧ NamesNone target := by
  by_cases hfull : chain ≠ mainnet ∨ paysFull = true
  · exact .inl hfull
  · obtain ⟨hchain, hpays⟩ := not_or.1 hfull
    have hchain := not_not.1 hchain
    have hpays : paysFull = false := by simpa using hpays
    cases hfilter : target.priority.filter (· ≠ Wei.zero) with
    | none => exact .inr (.inr ⟨⟨hchain, hpays⟩, filter_priority_eq_none_iff.1 hfilter⟩)
    | some fee =>
      obtain ⟨hnamed, hne⟩ := Option.filter_eq_some_iff.1 hfilter
      exact .inr (.inl ⟨fee, hchain, hpays, hnamed, of_decide_eq_true hne⟩)

theorem priorityFee_of_full (h : chain ≠ mainnet ∨ paysFull = true) :
    priorityFee levels target chain paysFull = target.price := by
  rw [priorityFee, if_pos]
  simpa using h

theorem priorityFee_of_names (h : Names target chain paysFull fee) :
    priorityFee levels target chain paysFull = fee := by
  obtain ⟨rfl, rfl, hnamed, hne⟩ := h
  have hfilter : target.priority.filter (· ≠ Wei.zero) = some fee :=
    Option.filter_eq_some_iff.2 ⟨hnamed, decide_eq_true hne⟩
  rw [priorityFee, if_neg (by simp), hfilter]

theorem priorityFee_of_none (h : NamesNone target) :
    priorityFee levels target mainnet false =
      (cheapest? levels).elim target.price (derivedPriority target) := by
  rw [priorityFee, if_neg (by simp), filter_priority_eq_none_iff.2 h]
  cases cheapest? levels <;> rfl

/-- In a market with a lowest price, a level that names no fee pays what the formula says, if no
other price is offered for its kind. -/
theorem toNat_priorityFee (hnone : NamesNone target) (hlowest : IsLowest levels c)
    (hprice : ∀ l ∈ levels, l.kind ≠ .custom → l.kind = target.kind → l.price = target.price) :
    (priorityFee levels target mainnet false).toNat = derivedFee c.toNat target.price.toNat := by
  rw [priorityFee_of_none hnone]
  cases hcheapest : cheapest? levels with
  | none =>
    obtain ⟨l, hl, hkind, -⟩ := hlowest.offered
    exact absurd (cheapest?_eq_none_iff.1 hcheapest l hl) hkind
  | some cheapest =>
    obtain ⟨hmem, hkind, hlowest'⟩ := isLowest_of_cheapest? hcheapest
    obtain rfl := hlowest.unique hlowest'
    exact toNat_derivedPriority (hprice cheapest hmem hkind)

/-! ### The order of the levels -/

section

variable (hkinds : (levels.map (·.kind)).Nodup)

include hkinds

theorem eq_of_kind_eq {l l' : FeeLevel} (hl : l ∈ levels) (hl' : l' ∈ levels)
    (h : l.kind = l'.kind) : l = l' :=
  List.inj_on_of_nodup_map hkinds hl hl' h

theorem ofKind?_eq_some_iff {kind : FeeKind} {l : FeeLevel} :
    ofKind? levels kind = some l ↔ l ∈ levels ∧ l.kind = kind := by
  have hfound : ∀ {l : FeeLevel}, ofKind? levels kind = some l → l ∈ levels ∧ l.kind = kind := by
    intro l h
    have hkind := List.find?_some h
    exact ⟨List.mem_of_find?_eq_some h, of_decide_eq_true hkind⟩
  refine ⟨hfound, ?_⟩
  rintro ⟨hl, hkind⟩
  cases h : ofKind? levels kind with
  | none => exact absurd (decide_eq_true hkind) (List.find?_eq_none.1 h l hl)
  | some l' =>
    obtain ⟨hl', hkind'⟩ := hfound h
    rw [eq_of_kind_eq hkinds hl' hl (hkind'.trans hkind.symm)]

theorem ofKind?_perm (hperm : levels.Perm levels') (kind : FeeKind) :
    ofKind? levels' kind = ofKind? levels kind := by
  have hkinds' : (levels'.map (·.kind)).Nodup := (hperm.map _).nodup_iff.1 hkinds
  refine Option.ext fun l => ?_
  rw [ofKind?_eq_some_iff hkinds', ofKind?_eq_some_iff hkinds, hperm.mem_iff]

theorem start?_perm (hperm : levels.Perm levels') (last : Option LastChoice)
    (prefersCustom : Bool) :
    start? levels' last prefersCustom = start? levels last prefersCustom := by
  have hremembered : remembered? levels' last = remembered? levels last := by
    unfold remembered?
    split
    · exact ofKind?_perm hkinds hperm _
    · rfl
  simp only [start?, ofKind?_perm hkinds hperm, hremembered]

theorem priorityFee_perm (hperm : levels.Perm levels') (htarget : target ∈ levels) :
    priorityFee levels' target chain paysFull = priorityFee levels target chain paysFull := by
  rcases full_or_names_or_none target chain paysFull with hfull | ⟨fee, hnames⟩ |
    ⟨⟨rfl, rfl⟩, hnone⟩
  · rw [priorityFee_of_full hfull, priorityFee_of_full hfull]
  · rw [priorityFee_of_names hnames, priorityFee_of_names hnames]
  · have hprice : ∀ l ∈ levels, l.kind ≠ .custom → l.kind = target.kind → l.price = target.price :=
      fun l hl _ hkind => congrArg price (eq_of_kind_eq hkinds hl htarget hkind)
    cases hcheapest : cheapest? levels with
    | none =>
      have hcustom : ∀ l ∈ levels', l.kind = .custom :=
        fun l hl => cheapest?_eq_none_iff.1 hcheapest l (hperm.mem_iff.2 hl)
      rw [priorityFee_of_none hnone, priorityFee_of_none hnone, hcheapest,
        cheapest?_eq_none_iff.2 hcustom]
    | some cheapest =>
      obtain ⟨-, -, hlowest⟩ := isLowest_of_cheapest? hcheapest
      refine Wei.ext ?_
      rw [toNat_priorityFee hnone (hlowest.perm hperm) fun l hl => hprice l (hperm.mem_iff.2 hl),
        toNat_priorityFee hnone hlowest hprice]

/-- In a market that offers each kind of level once, the order of the levels plays no part. On the
main network, a level that names no fee and does not pay the full price has a fee that comes from its
price and the lowest one alone. It is never above the price, and a custom level at no lower price,
in a market with the same lowest price, has no lower fee. -/
theorem market_order_and_fee :
    (∀ levels', levels.Perm levels' → ∀ last prefersCustom,
      start? levels' last prefersCustom = start? levels last prefersCustom) ∧
    ∀ target ∈ levels,
      (∀ levels', levels.Perm levels' → ∀ chain paysFull,
        priorityFee levels' target chain paysFull = priorityFee levels target chain paysFull) ∧
      (NamesNone target → ∀ c, IsLowest levels c →
        (priorityFee levels target mainnet false).toNat =
          (if target.price < c then target.price.toNat / 10
            else min (8 * (target.price.toNat - c.toNat)) (Wei.size - 1) / 10 +
              target.price.toNat / 10) ∧
        priorityFee levels target mainnet false ≤ target.price ∧
        ∀ dearer : FeeLevel, dearer.kind = .custom → NamesNone dearer →
          target.price ≤ dearer.price → ∀ levels', IsLowest levels' c →
            priorityFee levels target mainnet false ≤ priorityFee levels' dearer mainnet false) := by
  refine ⟨fun _ hperm => start?_perm hkinds hperm, fun target htarget => ⟨fun _ hperm _ _ =>
    priorityFee_perm hkinds hperm htarget, fun hnone c hlowest => ?_⟩⟩
  have hfee := toNat_priorityFee hnone hlowest
    fun l hl _ hkind => congrArg price (eq_of_kind_eq hkinds hl htarget hkind)
  refine ⟨hfee, ?_, fun dearer hcustom hnone' hprice levels' hlowest' => ?_⟩
  · rw [Wei.le_def, hfee]
    exact derivedFee_le _ _
  · have hfee' := toNat_priorityFee hnone' hlowest'
      fun l _ hl hkind => absurd (hkind.trans hcustom) hl
    rw [Wei.le_def, hfee, hfee']
    exact derivedFee_mono _ hprice

end

/-- Two cheapest levels, one of which names a fee of zero, and a custom one. -/
def sampleMarket : List FeeLevel :=
  [⟨.slow, Wei.ofWord 10, none, 60⟩, ⟨.normal, Wei.ofWord 10, some Wei.zero, 30⟩,
    ⟨.custom, Wei.ofWord 25, none, 0⟩]

theorem market_order_and_fee_sampleMarket :
    (sampleMarket.map (·.kind)).Nodup ∧
    start? sampleMarket.reverse none false = start? sampleMarket none false ∧
    IsLowest sampleMarket (Wei.ofWord 10) ∧
    (priorityFee sampleMarket ⟨.custom, Wei.ofWord 25, none, 0⟩ mainnet false).toNat = 14 := by
  have hkinds : (sampleMarket.map (·.kind)).Nodup := by decide
  have hlowest : IsLowest sampleMarket (Wei.ofWord 10) := by
    refine ⟨⟨⟨.slow, Wei.ofWord 10, none, 60⟩, by decide⟩, by decide⟩
  have hnone : NamesNone ⟨.custom, Wei.ofWord 25, none, 0⟩ := nofun
  obtain ⟨hstart, hfees⟩ := market_order_and_fee hkinds
  obtain ⟨-, hfee⟩ := hfees ⟨.custom, Wei.ofWord 25, none, 0⟩ (by decide)
  exact ⟨hkinds, hstart _ (List.reverse_perm _).symm none false, hlowest,
    (hfee hnone _ hlowest).1⟩

/-! ### The price as a bound -/

theorem derivedPriority_le (target cheapest : FeeLevel) :
    derivedPriority target cheapest ≤ target.price := by
  by_cases hkind : cheapest.kind = target.kind
  · rw [derivedPriority, if_pos (by simp [hkind])]
    exact Nat.div_le_self _ _
  · rw [Wei.le_def, toNat_derivedPriority fun h => absurd h hkind]
    exact derivedFee_le _ _

/-- A fee that the market names is taken as it is, above the price or not. Every other fee is within
the price, in any market. -/
theorem priorityFee_le_price (levels : List FeeLevel) (target : FeeLevel) (chain : UInt64)
    (paysFull : Bool) :
    (∀ fee, Names target chain paysFull fee → priorityFee levels target chain paysFull = fee) ∧
    (priorityFee levels target chain paysFull ≤ target.price ↔
      ∀ fee, Names target chain paysFull fee → fee ≤ target.price) := by
  refine ⟨fun fee => priorityFee_of_names, ?_⟩
  constructor
  · intro hle fee hnames
    rwa [priorityFee_of_names hnames] at hle
  · intro hle
    rcases full_or_names_or_none target chain paysFull with hfull | ⟨fee, hnames⟩ |
      ⟨⟨rfl, rfl⟩, hnone⟩
    · rw [priorityFee_of_full hfull]
      exact Nat.le_refl _
    · rw [priorityFee_of_names hnames]
      exact hle fee hnames
    · rw [priorityFee_of_none hnone]
      cases cheapest? levels with
      | none => exact Nat.le_refl _
      | some cheapest => exact derivedPriority_le target cheapest

/-- A level whose market names a fee within its price. -/
def modestLevel : FeeLevel := ⟨.fast, Wei.ofWord 30, some (Wei.ofWord 2), 0⟩

theorem priorityFee_modestLevel :
    Names modestLevel mainnet false (Wei.ofWord 2) ∧
    priorityFee sampleMarket modestLevel mainnet false = Wei.ofWord 2 ∧
    priorityFee sampleMarket modestLevel mainnet false ≤ modestLevel.price := by
  have hnames : Names modestLevel mainnet false (Wei.ofWord 2) := ⟨rfl, rfl, rfl, by decide⟩
  obtain ⟨hnamed, hle⟩ := priorityFee_le_price sampleMarket modestLevel mainnet false
  refine ⟨hnames, hnamed _ hnames, hle.2 fun fee h => ?_⟩
  obtain rfl : fee = Wei.ofWord 2 := Option.some.inj (h.named.symm.trans hnames.named)
  decide

/-- A level whose market names a fee above its price. -/
def overpaidLevel : FeeLevel := ⟨.normal, Wei.ofWord 20, some (Wei.ofWord 30), 0⟩

theorem priorityFee_overpaidLevel :
    ¬∀ levels target chain paysFull,
      priorityFee levels target chain paysFull ≤ target.price := by
  intro h
  have hfee := h [overpaidLevel] overpaidLevel mainnet false
  revert hfee
  decide

end Countersign.FeeLevel
