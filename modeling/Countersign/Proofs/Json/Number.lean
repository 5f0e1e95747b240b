import Countersign.Json.Number
import Countersign.Proofs.Binary64.Rounding

/-! Numbers of documents as binary64 numbers. Digits that make a word are all taken, so an integer
of 64 bits is far from the largest binary64 number. Where they have 53 bits at most and the power of
ten is a binary64 number too, nothing is rounded but their product or quotient. Main statement:
`isNearest_toBinary64`. -/

namespace Countersign

theorem Decimal.foldl_eq (ds : List Digit) (n : Nat) :
    ds.foldl (fun n d => 10 * n + d.val) n = n * Nat.pow 10 ds.length + Decimal.value ds := by
  induction ds generalizing n with
  | nil => simp [value]
  | cons d ds ih =>
    rw [value, List.foldl_cons, List.foldl_cons, ih, ih (10 * 0 + d.val), List.length_cons,
      Nat.pow_eq, Nat.pow_eq, pow_succ]
    ring

namespace Binary64

/-! ### Powers of ten

Those up to the 22nd are binary64 numbers: they have 53 bits at most before their last zeros. -/

section

variable {k : Nat} (h : k ≤ 22)
include h

theorem ten_pow_lt : Nat.pow 10 k < Nat.pow 2 75 :=
  Nat.lt_of_le_of_lt (Nat.pow_le_pow_right (by decide) h) (by decide)

theorem ofDecimal_one : ofDecimal false 1 k = nearest false (Nat.pow 10 k) 1 := by
  have hdigits : (Countersign.Decimal.digits 1).length = 1 := by
    rw [Countersign.Decimal.digits, if_pos (by decide)]
    rfl
  simp only [ofDecimal, hdigits]
  rw [if_neg (by omega), if_neg (by omega), if_neg (by omega), Int.natAbs_natCast, Nat.one_mul]

theorem magnitude_ofDecimal_one : (ofDecimal false 1 k).magnitude = Nat.pow 10 k * one := by
  have hfactors : Nat.pow 10 k = Nat.pow 5 k * Nat.pow 2 k := Nat.mul_pow 5 2 k
  have hfive : Nat.pow 5 k ≤ Nat.pow 2 53 :=
    Nat.le_trans (Nat.pow_le_pow_right (by decide) h) (by decide : Nat.pow 5 22 ≤ Nat.pow 2 53)
  have hfinite : (nearest false (Nat.pow 10 k) 1).isFinite = true :=
    isFinite_nearest (j := 75) (by rw [Nat.one_mul]; exact ten_pow_lt h) (by decide) false
  rw [ofDecimal_one h]
  rw [hfactors] at hfinite ⊢
  exact magnitude_nearest hfive hfinite

theorem magnitude_ofDecimal_one_lt : (ofDecimal false 1 k).magnitude < one * Nat.pow 2 75 := by
  rw [magnitude_ofDecimal_one h, Nat.mul_comm]
  exact Nat.mul_lt_mul_of_pos_left (ten_pow_lt h) (Nat.cast_pos.1 one_pos)

theorem one_le_magnitude_ofDecimal_one : one ≤ (ofDecimal false 1 k).magnitude := by
  rw [magnitude_ofDecimal_one h]
  exact Nat.le_mul_of_pos_left one (Nat.pow_pos (by decide))

theorem value_ofDecimal_one : (ofDecimal false 1 k).value = 10 ^ k := by
  have hnegative : (ofDecimal false 1 k).negative = false := by
    rw [ofDecimal_one h, negative_nearest]
  rw [value_eq_fraction, hnegative, magnitude_ofDecimal_one h, fraction,
    if_neg Bool.false_ne_true, Nat.cast_mul, mul_div_cancel_right₀ _ one_pos.ne', Nat.pow_eq,
    Nat.cast_pow]
  rfl

end

end Binary64

namespace Numeral

open Binary64

/-! ### The digits -/

theorem takeInto_eq {word : Nat} {ds : List Digit}
    (h : word * Nat.pow 10 ds.length + Decimal.value ds < UInt64.size) :
    takeInto word ds = (word * Nat.pow 10 ds.length + Decimal.value ds, ds.length) := by
  rw [← Decimal.foldl_eq] at h ⊢
  induction ds generalizing word with
  | nil => rfl
  | cons d ds ih =>
    rw [List.foldl_cons] at h
    have hstart : 10 * word + d.val < UInt64.size := by
      refine Nat.lt_of_le_of_lt ?_ h
      rw [Decimal.foldl_eq]
      exact Nat.le_add_right_of_le (Nat.le_mul_of_pos_right _ (Nat.pow_pos (by decide)))
    rw [takeInto, if_pos hstart, ih h]
    rfl

variable {n : Numeral}

theorem wordAndScale_eq (h : n.coefficient < UInt64.size) :
    n.wordAndScale = (n.coefficient, n.scale) := by
  have hwhole : n.whole < UInt64.size :=
    Nat.lt_of_le_of_lt
      (Nat.le_add_right_of_le (Nat.le_mul_of_pos_right _ (Nat.pow_pos (by decide)))) h
  rw [wordAndScale, startingWord, if_pos hwhole]
  dsimp only
  rw [takeInto_eq h, scale, Int.natCast_zero, Int.add_zero]
  rfl

theorem toBinary64_eq (h : n.coefficient < UInt64.size) :
    n.toBinary64 = scaled (nearest n.negative n.coefficient 1) n.scale := by
  rw [toBinary64, wordAndScale_eq h]

/-! ### In range -/

theorem coefficient_ofInt (i : Int) : (ofInt i).coefficient = i.natAbs := Nat.mul_one _

theorem scale_ofInt (i : Int) : (ofInt i).scale = 0 := rfl

/-- An integer of 64 bits is finite when it is read as a binary64 number. -/
theorem isFinite_toBinary64_ofInt {i : Int} (h : i.natAbs < UInt64.size) :
    (ofInt i).toBinary64.isFinite = true := by
  -- The digits make a word as they stand, which is rounded once and then multiplied by one.
  have hread : (ofInt i).toBinary64 =
      (nearest (ofInt i).negative i.natAbs 1).mul (ofDecimal false 1 (0 : Nat)) := by
    rw [toBinary64_eq (by rwa [coefficient_ofInt]), coefficient_ofInt, scale_ofInt, scaled,
      if_pos (by decide), if_pos (by decide)]
    rfl
  rw [hread]
  exact isFinite_mul (magnitude_nearest_word_lt h _) (magnitude_ofDecimal_one_lt (by decide))
    (by decide)

/-! ### Few digits -/

/-- The number that is written. -/
def value (n : Numeral) : ℚ :=
  (if n.negative then -(n.coefficient : ℚ) else n.coefficient) * 10 ^ n.scale

/-- A number of 53 bits at most, with a power of ten that is a binary64 number, is read as the
nearest binary64 number. -/
theorem isNearest_toBinary64 (hdigits : n.coefficient ≤ 2 ^ 53) (hscale : n.scale.natAbs ≤ 22) :
    n.toBinary64.IsNearest n.value := by
  have hword : n.coefficient < UInt64.size := Nat.lt_of_le_of_lt hdigits (by decide)
  have hfirst := magnitude_nearest_word_lt hword n.negative
  have hpower := value_ofDecimal_one hscale
  rw [toBinary64_eq hword, scaled, if_pos (Nat.le_trans hscale (by decide)), value,
    ← value_nearest_of_le hdigits]
  dsimp only
  split
  · next h =>
    have hten : (10 : ℚ) ^ n.scale = (ofDecimal false 1 n.scale.natAbs).value := by
      rw [hpower, ← zpow_natCast, Int.natAbs_of_nonneg h]
    rw [hten]
    exact isNearest_mul (isFinite_mul hfirst (magnitude_ofDecimal_one_lt hscale) (by decide))
  · next h =>
    have hten : (10 : ℚ) ^ n.scale = ((ofDecimal false 1 n.scale.natAbs).value)⁻¹ := by
      rw [hpower, ← zpow_natCast, ← zpow_neg, Int.ofNat_natAbs_of_nonpos (by omega), neg_neg]
    have hle := one_le_magnitude_ofDecimal_one hscale
    rw [hten, ← div_eq_mul_inv]
    exact isNearest_div (Nat.lt_of_lt_of_le (Nat.cast_pos.1 one_pos) hle)
      (isFinite_div hfirst hle (by decide))

end Numeral

end Countersign
