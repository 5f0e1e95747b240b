import Countersign.Proofs.Binary64.Rounding
import Countersign.Proofs.Rule.Evaluation

/-! Integers against the bounds of a range. Rules compare binary64 numbers, and an integer is
compared as the number it is rounded to. Rounding does not pass a bound on its way, so it matters
only where it ends on one. -/

namespace Countersign

namespace Binary64.IsNearest

variable {x y : Binary64} {q : ℚ} (h : x.IsNearest q) (hy : y.isFinite = true)
  (hexact : y.value = x.value → x.value = q)
include h hy hexact

theorem value_eq_iff : y.value = x.value ↔ y.value = q := by
  constructor
  · exact fun heq => heq.trans (hexact heq)
  · exact fun heq => heq.trans (h.value_eq hy heq).symm

/-- A number that is not rounded to `y` lies on the same side of it before and after. -/
theorem value_lt_iff : y.value < x.value ↔ y.value < q := by
  constructor
  · exact fun hlt => not_le.1 fun hle => not_lt.2 (h.value_le hy hle) hlt
  · exact fun hlt => lt_of_le_of_ne (h.le_value hy hlt.le) fun heq =>
      hlt.ne ((h.value_eq_iff hy hexact).1 heq)

theorem lt_value_iff : x.value < y.value ↔ q < y.value := by
  constructor
  · exact fun hlt => not_le.1 fun hle => not_lt.2 (h.le_value hy hle) hlt
  · exact fun hlt => lt_of_le_of_ne (h.value_le hy hlt.le) fun heq =>
      hlt.ne ((h.value_eq_iff hy hexact).1 heq.symm).symm

end Binary64.IsNearest

namespace Interval

variable {r : Interval} {x : Binary64} {q : ℚ}

/-- A number, binary64 or not, lies within the bounds. -/
structure Spans (r : Interval) (q : ℚ) : Prop where
  aboveMin : ∀ low, r.min = some low → low.value < q ∨ r.minIncluded = true ∧ low.value = q
  belowMax : ∀ high, r.max = some high → q < high.value ∨ r.maxIncluded = true ∧ high.value = q

def bounds (r : Interval) : List Binary64 := r.min.toList ++ r.max.toList

theorem covers_iff_spans : r.Covers x ↔ r.Spans x.value := by
  have heq : ∀ {b c : Binary64}, b.units = c.units ↔ b.value = c.value := by
    intro b c
    rw [le_antisymm_iff, le_antisymm_iff, ← not_lt, ← not_lt, ← Binary64.value_lt_value_iff,
      ← Binary64.value_lt_value_iff, not_lt, not_lt]
  constructor
  · rintro ⟨hmin, hmax⟩
    simp only [← Binary64.value_lt_value_iff, heq] at hmin hmax
    exact ⟨hmin, fun high hhigh => (hmax high hhigh).imp_right (And.imp_right Eq.symm)⟩
  · rintro ⟨hmin, hmax⟩
    simp only [Binary64.value_lt_value_iff, ← heq] at hmin hmax
    exact ⟨hmin, fun high hhigh => (hmax high hhigh).imp_right (And.imp_right Eq.symm)⟩

/-- Rounding changes nothing unless it ends on a bound. -/
theorem IsOrdered.spans_iff_of_isNearest (hr : r.IsOrdered) (hx : x.IsNearest q)
    (hexact : ∀ b ∈ r.bounds, b.value = x.value → x.value = q) : r.Spans x.value ↔ r.Spans q := by
  have hmin : ∀ low, r.min = some low →
      (low.value < x.value ∨ r.minIncluded = true ∧ low.value = x.value ↔
        low.value < q ∨ r.minIncluded = true ∧ low.value = q) := fun low hlow => by
    have hmem : low ∈ r.bounds := List.mem_append_left _ (Option.mem_toList.2 hlow)
    have hfinite := hr.finiteMin low hlow
    rw [hx.value_lt_iff hfinite (hexact low hmem), hx.value_eq_iff hfinite (hexact low hmem)]
  have hmax : ∀ high, r.max = some high →
      (x.value < high.value ∨ r.maxIncluded = true ∧ high.value = x.value ↔
        q < high.value ∨ r.maxIncluded = true ∧ high.value = q) := fun high hhigh => by
    have hmem : high ∈ r.bounds := List.mem_append_right _ (Option.mem_toList.2 hhigh)
    have hfinite := hr.finiteMax high hhigh
    rw [hx.lt_value_iff hfinite (hexact high hmem), hx.value_eq_iff hfinite (hexact high hmem)]
  constructor
  · exact fun h => ⟨fun low hlow => (hmin low hlow).1 (h.aboveMin low hlow),
      fun high hhigh => (hmax high hhigh).1 (h.belowMax high hhigh)⟩
  · exact fun h => ⟨fun low hlow => (hmin low hlow).2 (h.aboveMin low hlow),
      fun high hhigh => (hmax high hhigh).2 (h.belowMax high hhigh)⟩

end Interval

namespace Binary64

theorem isNearest_ofInt_toInt (v : Int64) : (ofInt v.toInt).IsNearest v.toInt := by
  have hlt := v.toInt_lt
  have hle := v.le_toInt
  exact isNearest_ofInt (by rw [UInt64.size]; omega)

/-- An integer that is rounded to less than 2^53 is rounded to itself. -/
theorem value_ofInt_of_abs_lt {v : Int64} (h : |(ofInt v.toInt).value| < 2 ^ 53) :
    (ofInt v.toInt).value = v.toInt := by
  have hnearest := isNearest_ofInt_toInt v
  obtain ⟨hlow, hhigh⟩ := abs_lt.1 h
  -- From 2^53 on an integer is not rounded to less than 2^53, and likewise on the other side.
  have hlt : v.toInt < 2 ^ 53 := by
    by_contra hle
    have hlarge : (ofInt (2 ^ 53)).value = (2 ^ 53 : ℤ) := value_ofInt (by decide)
    have hpast := hnearest.le_value (y := ofInt (2 ^ 53)) (by decide +kernel)
      (by rw [hlarge]; exact_mod_cast not_lt.1 hle)
    rw [hlarge] at hpast
    exact not_lt.2 hpast (by exact_mod_cast hhigh)
  have hgt : -2 ^ 53 < v.toInt := by
    by_contra hle
    have hsmall : (ofInt (-2 ^ 53)).value = (-2 ^ 53 : ℤ) := value_ofInt (by decide)
    have hpast := hnearest.value_le (y := ofInt (-2 ^ 53)) (by decide +kernel)
      (by rw [hsmall]; exact_mod_cast not_lt.1 hle)
    rw [hsmall] at hpast
    exact not_lt.2 hpast (by exact_mod_cast hlow)
  exact value_ofInt (by omega)

end Binary64

/-- A range of a rule for integers accepts an integer if the number it is rounded to lies within the
bounds. This is so for the integer itself if neither bound is what it is rounded to without being
equal to it, as with integers of up to 53 bits and with bounds of fewer. -/
theorem Rule.Built.range_accepts_int {r : Rule} (hr : r.Built) {min max : Option Int64}
    (hkind : r.kind = .int min max) {severity : Severity} {t : Interval}
    (ht : r.thresholds.get? severity = some (.range t)) (v : Int64) :
    ∃ x : Binary64, x.IsNearest v.toInt ∧ r.kind.reading? (.int v) = some (.number x) ∧
      ((Threshold.range t).accepts (.number x) = true ↔ t.Spans x.value) ∧
      (v.toInt.natAbs ≤ 2 ^ 53 ∨ (∀ b ∈ t.bounds, |b.value| < 2 ^ 53) ∨
          (∀ b ∈ t.bounds, b.value = x.value → x.value = v.toInt) →
        ((Threshold.range t).accepts (.number x) = true ↔ t.Spans v.toInt)) := by
  have hnearest := Binary64.isNearest_ofInt_toInt v
  have hordered : t.IsOrdered := by
    rw [get?_thresholds] at ht
    cases hr.isSound.fits_threshold? ht with
    | range _ hordered => exact hordered
  have haccepts : (Threshold.range t).accepts (.number (Binary64.ofInt v.toInt)) = true ↔
      t.Spans (Binary64.ofInt v.toInt).value :=
    (Interval.contains_iff hordered hnearest.finite).trans Interval.covers_iff_spans
  refine ⟨_, hnearest, by rw [hkind]; rfl, haccepts, fun hcases => haccepts.trans ?_⟩
  refine hordered.spans_iff_of_isNearest hnearest fun b hb heq => ?_
  rcases hcases with hv | hbounds | hexact
  · exact Binary64.value_ofInt hv
  · exact Binary64.value_ofInt_of_abs_lt (heq ▸ hbounds b hb)
  · exact hexact b hb heq

/-- The numbers up to 2^53. -/
def upTo53Bits : Interval := ⟨none, some ⟨0x4340000000000000⟩, false, true⟩

/-- A rule for integers that warns of numbers up to 2^53. -/
def smallNumberRule : Rule :=
  ⟨"number", "number", true, .int none none, Table.ofList [(.warning, .range upTo53Bits)], .empty⟩

theorem built_smallNumberRule : smallNumberRule.Built :=
  .make (show Rule.make "number" none true (.int none none)
    (Table.ofList [(.warning, .range upTo53Bits)]) .empty = .ok smallNumberRule by decide +kernel)

theorem range_accepts_int_small : smallNumberRule.Built ∧ ∃ x : Binary64,
    smallNumberRule.kind.reading? (.int 9007199254740992) = some (.number x) ∧
      (Threshold.range upTo53Bits).accepts (.number x) = true ∧
      upTo53Bits.Spans (9007199254740992 : Int64).toInt := by
  have hthreshold : smallNumberRule.thresholds.get? .warning = some (.range upTo53Bits) := by
    decide +kernel
  have hreading : smallNumberRule.kind.reading? (.int 9007199254740992) =
      some (.number ⟨0x4340000000000000⟩) := by decide +kernel
  obtain ⟨x, -, hread, -, hexact⟩ :=
    built_smallNumberRule.range_accepts_int rfl hthreshold 9007199254740992
  obtain rfl : x = ⟨0x4340000000000000⟩ := by simpa using hread.symm.trans hreading
  have haccepts : (Threshold.range upTo53Bits).accepts (.number ⟨0x4340000000000000⟩) = true := by
    decide +kernel
  exact ⟨built_smallNumberRule, _, hread, haccepts, (hexact (.inl (by decide))).1 haccepts⟩

/-- The rule also warns of the number after 2^53, which is not in its range. -/
theorem range_accepts_int_past_bound :
    smallNumberRule.Built ∧
      smallNumberRule.thresholds.get? .warning = some (.range upTo53Bits) ∧
      smallNumberRule.evaluate? (Table.ofList [("number", .int 9007199254740993)]) =
        some ⟨"number", .warning, true, some (.int 9007199254740993)⟩ ∧
      ¬upTo53Bits.Spans (9007199254740993 : Int64).toInt := by
  refine ⟨built_smallNumberRule, by decide +kernel, by decide +kernel, fun h => ?_⟩
  have hvalue : (⟨0x4340000000000000⟩ : Binary64).value = 2 ^ 53 := by
    rw [show (⟨0x4340000000000000⟩ : Binary64) = Binary64.ofInt (2 ^ 53) by decide +kernel,
      Binary64.value_ofInt (by decide)]
    norm_num
  have hint : ((9007199254740993 : Int64).toInt : ℚ) = 2 ^ 53 + 1 := by
    rw [show (9007199254740993 : Int64).toInt = 2 ^ 53 + 1 by decide]
    norm_num
  have hmax := h.belowMax _ rfl
  rw [hvalue, hint] at hmax
  norm_num at hmax

end Countersign
