import Countersign.Binary64.Nearest

/-! How far rounding to binary64 goes. The significand that is rounded to has the bits there are
room for, and the number nearest to a fraction that is well within range is finite. -/

namespace Countersign

namespace Binary64

theorem divHalfEven_le (num den : Nat) : divHalfEven num den ≤ num / den + 1 := by
  unfold divHalfEven
  dsimp only
  split
  · omega
  · split <;> omega

theorem le_divHalfEven (num den : Nat) : num / den ≤ divHalfEven num den := by
  unfold divHalfEven
  dsimp only
  split
  · omega
  · split <;> omega

theorem surplusBits_le {units k : Nat} (h : units < Nat.pow 2 k) :
    surplusBits units ≤ k - 53 := by
  unfold surplusBits
  by_cases hzero : units = 0
  · simp [hzero]
  · have := (Nat.log2_lt hzero).2 h
    omega

theorem div_two_pow_surplusBits_lt (units : Nat) :
    units / Nat.pow 2 (surplusBits units) < Nat.pow 2 53 := by
  rw [Nat.pow_eq, Nat.pow_eq, Nat.div_lt_iff_lt_mul (Nat.two_pow_pos _), ← Nat.pow_add]
  refine Nat.lt_of_lt_of_le Nat.lt_log2_self (Nat.pow_le_pow_right (by decide) ?_)
  unfold surplusBits
  omega

theorem fractionSize_le_div_surplusBits {units : Nat} (h : surplusBits units ≠ 0) :
    fractionSize ≤ units / Nat.pow 2 (surplusBits units) := by
  have hzero : units ≠ 0 := by
    rintro rfl
    exact h rfl
  have hlog : 52 + surplusBits units = units.log2 := by
    unfold surplusBits at *
    omega
  rw [fractionSize, Nat.pow_eq, Nat.pow_eq, Nat.le_div_iff_mul_le (Nat.two_pow_pos _),
    ← Nat.pow_add, hlog]
  exact Nat.log2_self_le hzero

theorem nearestBits_le {num den k : Nat} (h : num * one / den < Nat.pow 2 k) :
    nearestBits num den ≤ (k - 53 + 2) * fractionSize := by
  have hsurplus := surplusBits_le h
  have hlow := div_two_pow_surplusBits_lt (num * one / den)
  have hround := divHalfEven_le (num * one) (den * Nat.pow 2 (surplusBits (num * one / den)))
  rw [← Nat.div_div_eq_div_mul] at hround
  simp only [nearestBits, fractionSize, Nat.pow_eq] at hlow hround ⊢
  omega

theorem exponentField_signed {bits : Nat} (h : bits < infinityBits) (negative : Bool) :
    (signed negative bits).exponentField = bits / fractionSize := by
  simp only [infinityBits, fractionSize, Nat.pow_eq] at h
  simp only [exponentField, signed, fractionSize, signBit, Nat.pow_eq, UInt64.toNat_ofNat']
  cases negative
  · simp only [Bool.false_eq_true, ↓reduceIte]
    omega
  · simp only [↓reduceIte]
    omega

theorem magnitude_lt {x : Binary64} {k : Nat} (h : x.exponentField ≤ k + 1) :
    x.magnitude < Nat.pow 2 (k + 53) := by
  have hsignificand : x.significand < 2 ^ 53 := by
    have hfraction : x.fractionField < fractionSize := Nat.mod_lt _ (Nat.two_pow_pos 52)
    simp only [fractionSize, Nat.pow_eq] at hfraction
    simp only [significand, fractionSize, Nat.pow_eq]
    split <;> omega
  have hexponent : max x.exponentField 1 - 1 ≤ k := by omega
  calc x.magnitude = x.significand * 2 ^ (max x.exponentField 1 - 1) := rfl
    _ < 2 ^ 53 * 2 ^ (max x.exponentField 1 - 1) :=
      Nat.mul_lt_mul_of_pos_right hsignificand (Nat.two_pow_pos _)
    _ ≤ 2 ^ 53 * 2 ^ k := Nat.mul_le_mul_left _ (Nat.pow_le_pow_right (by decide) hexponent)
    _ = 2 ^ (k + 53) := by rw [← Nat.pow_add, Nat.add_comm]

/-- A fraction that is well within range has a finite nearest number, of about its size. -/
theorem exponentField_nearest_le {num den k : Nat} (h : num * one / den < Nat.pow 2 k)
    (hk : k ≤ 2000) (negative : Bool) :
    (nearest negative num den).exponentField ≤ k - 53 + 2 := by
  have hle := nearestBits_le h
  have hlt : nearestBits num den < infinityBits := by
    simp only [infinityBits, fractionSize, Nat.pow_eq] at hle ⊢
    omega
  rw [nearest, exponentField_signed hlt]
  simp only [fractionSize, Nat.pow_eq] at hle ⊢
  omega

theorem isFinite_of_exponentField_le {x : Binary64} {k : Nat} (h : x.exponentField ≤ k)
    (hk : k < 2047) : x.isFinite = true := by
  simp only [isFinite, ne_eq, decide_not, Bool.not_eq_true', decide_eq_false_iff_not]
  omega

/-- The units in one are a power of two, whose exponent stays unevaluated in proofs. -/
theorem exists_one_eq : ∃ k, k ≤ 1074 ∧ one = Nat.pow 2 k := by
  refine ⟨1074, Nat.le_refl _, ?_⟩
  unfold one
  rfl

/-- A fraction that is far below the largest number is rounded to a finite one. -/
theorem isFinite_nearest {num den j : Nat} (h : num < den * Nat.pow 2 j) (hj : j ≤ 900)
    (negative : Bool) : (nearest negative num den).isFinite = true := by
  obtain ⟨k, hk, hone⟩ := exists_one_eq
  have hunits : num * one / den < Nat.pow 2 (j + k) := by
    have hpow : Nat.pow 2 (j + k) = Nat.pow 2 j * Nat.pow 2 k := Nat.pow_add 2 j k
    apply Nat.div_lt_of_lt_mul
    rw [hone, hpow, ← Nat.mul_assoc]
    exact Nat.mul_lt_mul_of_pos_right h (Nat.two_pow_pos k)
  have hexponent := exponentField_nearest_le hunits (by omega) negative
  exact isFinite_of_exponentField_le hexponent (by omega)

theorem isFinite_nearest_word {n : Nat} (h : n < UInt64.size) (negative : Bool) :
    (nearest negative n 1).isFinite = true :=
  isFinite_nearest (j := 64) (by rw [Nat.one_mul]; exact h) (by decide) negative

theorem isFinite_ofInt {i : Int} (h : i.natAbs < UInt64.size) : (ofInt i).isFinite = true :=
  isFinite_nearest_word h _

theorem magnitude_nearest_word_lt {n : Nat} (h : n < UInt64.size) (negative : Bool) :
    (nearest negative n 1).magnitude < one * Nat.pow 2 65 := by
  obtain ⟨k, hk, hone⟩ := exists_one_eq
  have hunits : n * one / 1 < Nat.pow 2 (64 + k) := by
    have hpow : Nat.pow 2 (64 + k) = UInt64.size * Nat.pow 2 k := Nat.pow_add 2 64 k
    rw [Nat.div_one, hone, hpow]
    exact Nat.mul_lt_mul_of_pos_right h (Nat.two_pow_pos k)
  have hexponent := exponentField_nearest_le hunits (by omega) negative
  have hpow : Nat.pow 2 (k + 12 + 53) = Nat.pow 2 k * Nat.pow 2 65 := Nat.pow_add 2 k 65
  rw [hone, ← hpow]
  exact magnitude_lt (by omega)

/-! ### Products and quotients within range -/

section

variable {x y : Binary64} {j k : Nat} (hx : x.magnitude < one * Nat.pow 2 j)
include hx

theorem isFinite_mul (hy : y.magnitude < one * Nat.pow 2 k) (hjk : j + k ≤ 900) :
    (x.mul y).isFinite = true := by
  have hpow : Nat.pow 2 (j + k) = Nat.pow 2 j * Nat.pow 2 k := Nat.pow_add 2 j k
  refine isFinite_nearest (j := j + k) ?_ hjk _
  rw [hpow, Nat.mul_mul_mul_comm]
  exact Nat.mul_lt_mul'' hx hy

theorem isFinite_div (hy : one ≤ y.magnitude) (hj : j ≤ 900) : (x.div y).isFinite = true :=
  isFinite_nearest (Nat.lt_of_lt_of_le hx (Nat.mul_le_mul_right _ hy)) hj _

end

end Binary64

end Countersign
