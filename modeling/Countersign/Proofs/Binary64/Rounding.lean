import Countersign.Proofs.Binary64.Nearest
import Mathlib.Algebra.Order.Round
import Mathlib.Data.Rat.Floor
import Mathlib.Tactic.FieldSimp
import Mathlib.Tactic.Linarith
import Mathlib.Tactic.Ring

/-! Rounding to binary64 takes a nearest number. The bits of a number after its sign rise with its
absolute value, and the bits that a fraction is rounded to are nearer to it than any others, or even
where others are as near. -/

namespace Countersign.Binary64

/-! ### Absolute values by their bits -/

/-- The bits after the sign. -/
def unsigned (x : Binary64) : Nat := x.bits.toNat % signBit

/-- The absolute value, in units, of the numbers with the given bits after their sign. -/
def absolute (bits : Nat) : Nat :=
  if bits < fractionSize then bits
  else (fractionSize + bits % fractionSize) * Nat.pow 2 (bits / fractionSize - 1)

theorem unsigned_div (x : Binary64) : x.unsigned / fractionSize = x.exponentField := by
  simp only [unsigned, exponentField, signBit, fractionSize, Nat.pow_eq]
  omega

theorem unsigned_mod (x : Binary64) : x.unsigned % fractionSize = x.fractionField := by
  simp only [unsigned, fractionField, signBit, fractionSize, Nat.pow_eq]
  omega

theorem magnitude_eq_absolute (x : Binary64) : x.magnitude = absolute x.unsigned := by
  have hsize : 0 < fractionSize := Nat.two_pow_pos 52
  rw [magnitude, absolute, significand, unsigned_div, unsigned_mod]
  by_cases h : x.exponentField = 0
  · have hlt : x.unsigned < fractionSize := by
      rwa [← unsigned_div, Nat.div_eq_zero_iff_lt hsize] at h
    rw [if_pos h, if_pos hlt, h, ← unsigned_mod, Nat.mod_eq_of_lt hlt]
    exact Nat.mul_one _
  · have hle : ¬x.unsigned < fractionSize := by
      rwa [← unsigned_div, Nat.div_eq_zero_iff_lt hsize] at h
    rw [if_neg h, if_neg hle, Nat.max_eq_left (Nat.pos_of_ne_zero h)]

/-- Bits are a significand behind an exponent, also where the significand carries into it. -/
theorem absolute_of_parts {exponent significand : Nat} (hle : significand ≤ 2 * fractionSize)
    (hlow : exponent = 0 ∨ fractionSize ≤ significand) :
    absolute (exponent * fractionSize + significand) = significand * Nat.pow 2 exponent := by
  have hsize : 0 < fractionSize := Nat.two_pow_pos 52
  unfold absolute
  rw [Nat.mul_comm exponent, Nat.mul_add_div hsize, Nat.mul_add_mod]
  rcases Nat.lt_or_ge significand fractionSize with hsmall | hlarge
  · obtain rfl : exponent = 0 := hlow.resolve_right (by omega)
    rw [Nat.mul_zero, Nat.zero_add, if_pos hsmall]
    exact (Nat.mul_one _).symm
  · have hnot : ¬fractionSize * exponent + significand < fractionSize := by omega
    rw [if_neg hnot]
    rcases Nat.lt_or_eq_of_le hle with hnormal | rfl
    · have hdiv : significand / fractionSize = 1 := Nat.div_eq_of_lt_le (by omega) (by omega)
      have hmod : significand % fractionSize = significand - fractionSize := by
        rw [Nat.mod_eq_sub_mod hlarge, Nat.mod_eq_of_lt (by omega)]
      rw [hdiv, hmod, Nat.add_sub_cancel, Nat.add_sub_cancel' hlarge]
    · rw [Nat.mul_div_cancel _ hsize, Nat.mul_mod_left, Nat.add_zero,
        show exponent + 2 - 1 = exponent + 1 by omega, Nat.pow_eq, Nat.pow_eq, Nat.pow_succ]
      ac_rfl

theorem exists_parts (bits : Nat) : ∃ exponent significand,
    bits = exponent * fractionSize + significand ∧ significand < 2 * fractionSize ∧
      (exponent = 0 ∨ fractionSize ≤ significand) := by
  have hsize : 0 < fractionSize := Nat.two_pow_pos 52
  rcases Nat.lt_or_ge bits fractionSize with hsmall | hlarge
  · exact ⟨0, bits, by omega, by omega, .inl rfl⟩
  · refine ⟨bits / fractionSize - 1, fractionSize + bits % fractionSize, ?_, ?_,
      .inr (Nat.le_add_right _ _)⟩
    · have hdiv : 1 ≤ bits / fractionSize := (Nat.one_le_div_iff hsize).2 hlarge
      have hbits := Nat.div_add_mod bits fractionSize
      rw [Nat.mul_comm, ← Nat.sub_add_cancel hdiv, Nat.add_mul, Nat.one_mul] at hbits
      omega
    · have := Nat.mod_lt bits hsize
      omega

theorem strictMono_absolute : StrictMono absolute := by
  refine strictMono_nat_of_lt_succ fun bits => ?_
  obtain ⟨exponent, significand, rfl, hlt, hlow⟩ := exists_parts bits
  rw [absolute_of_parts (by omega) hlow, Nat.add_assoc,
    absolute_of_parts (by omega) (by omega), Nat.succ_mul]
  exact Nat.lt_add_of_pos_right (Nat.two_pow_pos _)

theorem unsigned_signed {bits : Nat} (h : bits < signBit) (negative : Bool) :
    (signed negative bits).unsigned = bits := by
  simp only [unsigned, signed, signBit, Nat.pow_eq, UInt64.toNat_ofNat'] at *
  split <;> omega

theorem negative_signed {bits : Nat} (h : bits < signBit) (negative : Bool) :
    (signed negative bits).negative = negative := by
  simp only [Binary64.negative, signed, signBit, Nat.pow_eq, UInt64.toNat_ofNat'] at *
  cases negative <;> simp <;> omega

theorem isFinite_iff {x : Binary64} : x.isFinite = true ↔ x.unsigned < infinityBits := by
  have hdiv := x.unsigned_div
  have hlt : x.unsigned < signBit := Nat.mod_lt _ (Nat.two_pow_pos 63)
  simp only [isFinite, decide_eq_true_eq, infinityBits, signBit, fractionSize, Nat.pow_eq] at *
  omega

/-! ### The nearest bits -/

/-- How far `n` steps of `den` are from `num`. -/
def gap (den num n : Nat) : Nat := (((n * den : Nat) : Int) - num).natAbs

/-- A quotient that is rounded is nearer than any other whole number, or even where another is as
near. -/
theorem gap_divHalfEven {num den n : Nat} (hden : 0 < den) (hne : n ≠ divHalfEven num den) :
    gap den num (divHalfEven num den) < gap den num n ∨
      gap den num (divHalfEven num den) = gap den num n ∧ divHalfEven num den % 2 = 0 := by
  have hnum := Nat.div_add_mod' num den
  have hrest := Nat.mod_lt num hden
  unfold divHalfEven gap at *
  dsimp only at *
  generalize num / den = q at *
  generalize num % den = r at *
  have hnext : (q + 1) * den = q * den + den := Nat.succ_mul q den
  -- Another number of steps is below the quotient, next to the fraction, or beyond both of these.
  have hn : n * den + den ≤ q * den ∨ n = q ∨ n = q + 1 ∨ q * den + 2 * den ≤ n * den := by
    rcases Nat.lt_trichotomy n q with h | h | h
    · exact .inl (Nat.succ_mul n den ▸ Nat.mul_le_mul_right den h)
    · exact .inr (.inl h)
    · rcases Nat.eq_or_lt_of_le h with h | h
      · exact .inr (.inr (.inl h.symm))
      · exact .inr (.inr (.inr (Nat.add_mul q 2 den ▸ Nat.mul_le_mul_right den h)))
  have hround : q + q % 2 = q ∨ q + q % 2 = q + 1 := by omega
  split_ifs at hne ⊢ with hlow hhigh
  · rcases hn with h | rfl | rfl | h <;> omega
  · rcases hn with h | rfl | rfl | h <;> omega
  · rcases hround with heven | hodd
    · rw [heven] at hne ⊢
      rcases hn with h | rfl | rfl | h <;> omega
    · rw [hodd] at hne ⊢
      rcases hn with h | rfl | rfl | h <;> omega

theorem gap_mul (den num n k : Nat) : gap den num (n * k) = gap (den * k) num n := by
  rw [gap, gap, Nat.mul_assoc, Nat.mul_comm k]

/-- The significand that `units / den` is rounded to, in steps of its exponent. -/
def roundedSignificand (units den : Nat) : Nat :=
  divHalfEven units (den * Nat.pow 2 (surplusBits (units / den)))

theorem roundedSignificand_range (units den : Nat) :
    roundedSignificand units den ≤ 2 * fractionSize ∧
      (surplusBits (units / den) = 0 ∨ fractionSize ≤ roundedSignificand units den) := by
  have hlow := div_two_pow_surplusBits_lt (units / den)
  have hup := divHalfEven_le units (den * Nat.pow 2 (surplusBits (units / den)))
  have hdown := le_divHalfEven units (den * Nat.pow 2 (surplusBits (units / den)))
  have hnormal : surplusBits (units / den) ≠ 0 → _ := fractionSize_le_div_surplusBits
  unfold roundedSignificand
  rw [← Nat.div_div_eq_div_mul] at hup hdown
  have hsize : 2 * fractionSize = Nat.pow 2 53 := rfl
  omega

/-- A number on the grid that a fraction is rounded to, or one below it. -/
theorem exists_steps_or_lt (surplus bits : Nat) :
    (∃ n, absolute bits = n * Nat.pow 2 surplus) ∨
      0 < surplus ∧ absolute bits < fractionSize * Nat.pow 2 surplus := by
  obtain ⟨exponent, significand, rfl, hlt, hlow⟩ := exists_parts bits
  rw [absolute_of_parts (Nat.le_of_lt hlt) hlow]
  rcases Nat.lt_or_ge exponent surplus with h | h
  · refine .inr ⟨by omega, ?_⟩
    have hpow : Nat.pow 2 exponent * 2 ≤ Nat.pow 2 surplus := by
      rw [Nat.pow_eq, Nat.pow_eq, ← Nat.pow_succ]
      exact Nat.pow_le_pow_right (by decide) h
    calc significand * Nat.pow 2 exponent
        < 2 * fractionSize * Nat.pow 2 exponent :=
          Nat.mul_lt_mul_of_pos_right hlt (Nat.two_pow_pos _)
      _ = fractionSize * (Nat.pow 2 exponent * 2) := by ac_rfl
      _ ≤ fractionSize * Nat.pow 2 surplus := Nat.mul_le_mul_left _ hpow
  · refine .inl ⟨significand * Nat.pow 2 (exponent - surplus), ?_⟩
    rw [Nat.mul_assoc, Nat.pow_eq, Nat.pow_eq, Nat.pow_eq, ← Nat.pow_add, Nat.sub_add_cancel h]

theorem gap_divHalfEven_le {den : Nat} (hden : 0 < den) (num n : Nat) :
    gap den num (divHalfEven num den) ≤ gap den num n := by
  by_cases h : n = divHalfEven num den
  · rw [h]
  · rcases gap_divHalfEven hden h with h | h <;> omega

/-- The bits that `units / den` is rounded to before they are capped. -/
def roundedBits (units den : Nat) : Nat :=
  surplusBits (units / den) * fractionSize + roundedSignificand units den

section

variable {units den bits : Nat} (hden : 0 < den)
include hden

theorem gap_roundedBits (hne : bits ≠ roundedBits units den) :
    gap den units (absolute (roundedBits units den)) < gap den units (absolute bits) ∨
      gap den units (absolute (roundedBits units den)) = gap den units (absolute bits) ∧
        roundedBits units den % 2 = 0 := by
  obtain ⟨hle, hlow⟩ := roundedSignificand_range units den
  have hnormal : surplusBits (units / den) ≠ 0 → _ := fractionSize_le_div_surplusBits
  unfold roundedBits roundedSignificand at *
  generalize surplusBits (units / den) = surplus at *
  have hstep : 0 < den * Nat.pow 2 surplus := Nat.mul_pos hden (Nat.two_pow_pos _)
  rw [absolute_of_parts hle hlow, gap_mul]
  rcases exists_steps_or_lt surplus bits with ⟨n, hn⟩ | ⟨hpos, hlt⟩
  · have hne' : n ≠ divHalfEven units (den * Nat.pow 2 surplus) := by
      rintro rfl
      exact hne (strictMono_absolute.injective (hn.trans (absolute_of_parts hle hlow).symm))
    rw [hn, gap_mul]
    refine (gap_divHalfEven hstep hne').imp id fun ⟨hgap, heven⟩ => ⟨hgap, ?_⟩
    have hsize : fractionSize = 2 * Nat.pow 2 51 := rfl
    rw [hsize, Nat.mul_left_comm, Nat.mul_add_mod, heven]
  · -- The least significand with all its bits is on the grid, between these bits and the fraction.
    refine .inl (Nat.lt_of_le_of_lt (gap_divHalfEven_le hstep units fractionSize) ?_)
    have hleast := hnormal (Nat.ne_of_gt hpos)
    rw [Nat.div_div_eq_div_mul, Nat.le_div_iff_mul_le hstep] at hleast
    have hbelow : absolute bits * den < fractionSize * (den * Nat.pow 2 surplus) := by
      rw [Nat.mul_left_comm, Nat.mul_comm den]
      exact Nat.mul_lt_mul_of_pos_right hlt hden
    unfold gap
    generalize fractionSize * (den * Nat.pow 2 surplus) = least at *
    omega

/-- Of all bits up to infinity the ones that a fraction is rounded to are nearest, or even where
others are as near. -/
theorem gap_min_roundedBits (hle : bits ≤ infinityBits)
    (hne : bits ≠ min (roundedBits units den) infinityBits) :
    let nearest := min (roundedBits units den) infinityBits
    gap den units (absolute nearest) < gap den units (absolute bits) ∨
      gap den units (absolute nearest) = gap den units (absolute bits) ∧ nearest % 2 = 0 := by
  have hrounded := fun (bits : Nat) (hne : bits ≠ roundedBits units den) =>
    gap_roundedBits hden hne
  dsimp only
  generalize roundedBits units den = rounded at *
  generalize infinityBits = infinity at *
  rcases Nat.le_total rounded infinity with h | h
  · rw [Nat.min_eq_left h] at *
    exact hrounded bits hne
  · rw [Nat.min_eq_right h] at *
    rcases Nat.lt_or_eq_of_le h with h | rfl
    · have hmul := fun {m n : Nat} (hlt : m < n) =>
        Nat.mul_lt_mul_of_pos_right (strictMono_absolute hlt) hden
      have habove := hmul h
      have hbelow := hmul (Nat.lt_of_le_of_ne hle hne)
      have hcap := hrounded infinity (Nat.ne_of_lt h)
      unfold gap at *
      omega
    · exact hrounded bits hne

end

/-! ### Values -/

/-- The value of a finite number. -/
def value (x : Binary64) : ℚ := x.units / one

theorem one_pos : (0 : ℚ) < one := by
  obtain ⟨k, -, hone⟩ := exists_one_eq
  rw [hone, Nat.pow_eq]
  exact Nat.cast_pos.2 (Nat.two_pow_pos k)

theorem abs_value (x : Binary64) : |x.value| = x.magnitude / one := by
  rw [value, abs_div, abs_of_pos one_pos, ← Int.cast_abs, Int.abs_eq_natAbs, natAbs_units,
    Int.cast_natCast]

theorem value_lt_value_iff {x y : Binary64} : x.value < y.value ↔ x.units < y.units := by
  rw [value, value, div_lt_div_iff_of_pos_right one_pos, Int.cast_lt]

/-- Finite numbers are ordered as their values are. -/
theorem lt_iff_value_lt {x y : Binary64} (hx : x.isFinite = true) (hy : y.isFinite = true) :
    x.lt y = true ↔ x.value < y.value := by
  rw [lt_iff hx hy, value_lt_value_iff]

theorem le_iff_value_le {x y : Binary64} (hx : x.isFinite = true) (hy : y.isFinite = true) :
    x.le y = true ↔ x.value ≤ y.value := by
  rw [le_iff hx hy, ← not_lt, ← not_lt, value_lt_value_iff]

theorem value_zero : zero.value = 0 := by
  rw [value, show zero.units = 0 by decide +kernel, Int.cast_zero, zero_div]

theorem abs_sub_eq_gap {den : Nat} (hden : 0 < den) (units num : Nat) :
    |(units : ℚ) / one - num / den| = gap den (num * one) units / (one * den) := by
  have hden' : (0 : ℚ) < den := Nat.cast_pos.2 hden
  have hone := one_pos
  rw [gap, Nat.cast_natAbs]
  generalize one = unit at *
  rw [div_sub_div _ _ hone.ne' hden'.ne', abs_div, abs_of_pos (mul_pos hone hden')]
  push_cast
  rw [mul_comm (unit : ℚ)]

/-- `x` is what the number `q` is rounded to: a finite number to which none is nearer, with an even
significand where another one is as near. -/
structure IsNearest (x : Binary64) (q : ℚ) : Prop where
  finite : x.isFinite = true
  nearest : ∀ y : Binary64, y.isFinite = true → |x.value - q| ≤ |y.value - q|
  even : ∀ y : Binary64, y.isFinite = true → |y.value - q| = |x.value - q| → y.value ≠ x.value →
    x.significand % 2 = 0

theorem significand_mod_two (x : Binary64) : x.significand % 2 = x.unsigned % 2 := by
  have hmod := x.unsigned_mod
  simp only [significand, fractionSize, Nat.pow_eq] at *
  split <;> omega

theorem nearestBits_lt_signBit (num den : Nat) : nearestBits num den < signBit :=
  Nat.lt_of_le_of_lt (Nat.min_le_right _ _) (by decide +kernel)

theorem unsigned_nearest (negative : Bool) (num den : Nat) :
    (nearest negative num den).unsigned = min (roundedBits (num * one) den) infinityBits :=
  unsigned_signed (nearestBits_lt_signBit num den) negative

theorem negative_nearest (negative : Bool) (num den : Nat) :
    (nearest negative num den).negative = negative :=
  negative_signed (nearestBits_lt_signBit num den) negative

/-- The fraction that `nearest` rounds. -/
def fraction (negative : Bool) (num den : Nat) : ℚ := if negative then -(num / den) else num / den

theorem abs_fraction (negative : Bool) (num den : Nat) :
    |fraction negative num den| = num / den := by
  have hnonneg : (0 : ℚ) ≤ num / den := by positivity
  unfold fraction
  split
  · rw [abs_neg, abs_of_nonneg hnonneg]
  · exact abs_of_nonneg hnonneg

theorem value_eq_fraction (x : Binary64) : x.value = fraction x.negative x.magnitude one := by
  rw [value, units, fraction]
  split
  · rw [Int.cast_neg, Int.cast_natCast, neg_div]
  · rw [Int.cast_natCast]

theorem abs_nearest_sub (negative : Bool) (num den : Nat) :
    |(nearest negative num den).value - fraction negative num den| =
      |((nearest negative num den).magnitude : ℚ) / one - num / den| := by
  rw [value_eq_fraction, negative_nearest, fraction, fraction]
  split
  · rw [neg_sub_neg, abs_sub_comm]
  · rfl

section

variable {negative : Bool} {num den : Nat} (hden : 0 < den)
include hden

/-- The distance of any number from a fraction is that of their absolute values at least. -/
theorem gap_le_abs_sub (y : Binary64) :
    (gap den (num * one) y.magnitude / (one * den) : ℚ) ≤ |y.value - fraction negative num den| := by
  rw [← abs_sub_eq_gap hden, ← abs_value, ← abs_fraction negative]
  exact abs_abs_sub_abs_le _ _

theorem abs_nearest_sub_eq_gap :
    |(nearest negative num den).value - fraction negative num den| =
      gap den (num * one) (nearest negative num den).magnitude / (one * den) := by
  rw [abs_nearest_sub, abs_sub_eq_gap hden]

theorem gap_nearest {y : Binary64} (hy : y.isFinite = true)
    (hne : y.unsigned ≠ (nearest negative num den).unsigned) :
    gap den (num * one) (nearest negative num den).magnitude < gap den (num * one) y.magnitude ∨
      gap den (num * one) (nearest negative num den).magnitude =
          gap den (num * one) y.magnitude ∧
        (nearest negative num den).significand % 2 = 0 := by
  rw [significand_mod_two, magnitude_eq_absolute, magnitude_eq_absolute, unsigned_nearest] at *
  exact gap_min_roundedBits hden (Nat.le_of_lt (isFinite_iff.1 hy)) hne

/-- What is rounded is within range: its nearest number is nearest of all. -/
theorem isNearest_nearest (hfinite : (nearest negative num den).isFinite = true) :
    (nearest negative num den).IsNearest (fraction negative num den) := by
  have hscale : (0 : ℚ) < one * den := mul_pos one_pos (Nat.cast_pos.2 hden)
  have hnearest : ∀ y : Binary64, y.isFinite = true →
      |(nearest negative num den).value - fraction negative num den| ≤
        |y.value - fraction negative num den| := by
    intro y hy
    refine le_trans ?_ (gap_le_abs_sub hden y)
    rw [abs_nearest_sub_eq_gap hden, div_le_div_iff_of_pos_right hscale, Nat.cast_le]
    by_cases hsame : y.unsigned = (nearest negative num den).unsigned
    · rw [magnitude_eq_absolute, magnitude_eq_absolute, hsame]
    · rcases gap_nearest hden hy hsame with h | h <;> omega
  refine ⟨hfinite, hnearest, fun y hy htie hne => ?_⟩
  by_cases hsame : y.unsigned = (nearest negative num den).unsigned
  · -- A number and its negative are as near only to zero, and zero is nearer then.
    have habs : |y.value| = |(nearest negative num den).value| := by
      rw [abs_value, abs_value, magnitude_eq_absolute, magnitude_eq_absolute, hsame]
    have hneg := (abs_eq_abs.1 habs).resolve_left hne
    have hzero := hnearest zero (by decide +kernel)
    rw [value_zero] at hzero
    rw [hneg] at htie hne
    refine absurd ?_ hne
    rcases abs_eq_abs.1 htie with h | h
    · linarith
    · have hfraction : fraction negative num den = 0 := by linarith
      rw [hfraction, sub_zero, sub_zero, abs_zero, abs_nonpos_iff] at hzero
      rw [hzero, neg_zero]
  · have hgap := gap_nearest hden hy hsame
    have hfar : (gap den (num * one) y.magnitude / (one * den) : ℚ) ≤
        |y.value - fraction negative num den| := gap_le_abs_sub hden y
    rw [htie, abs_nearest_sub_eq_gap hden, div_le_div_iff_of_pos_right hscale, Nat.cast_le] at hfar
    exact (hgap.resolve_left (Nat.not_lt.2 hfar)).2

end

/-! ### Comparing what is rounded -/

namespace IsNearest

variable {x y : Binary64} {q : ℚ} (h : x.IsNearest q) (hy : y.isFinite = true)
include h hy

/-- Rounding does not pass a number on its way. -/
theorem le_value (hle : y.value ≤ q) : y.value ≤ x.value := by
  by_contra hlt
  have hnearest := h.nearest y hy
  rw [abs_of_nonpos (by linarith), abs_of_nonpos (by linarith)] at hnearest
  linarith

theorem value_le (hle : q ≤ y.value) : x.value ≤ y.value := by
  by_contra hlt
  have hnearest := h.nearest y hy
  rw [abs_of_nonneg (by linarith), abs_of_nonneg (by linarith)] at hnearest
  linarith

theorem value_eq (heq : y.value = q) : x.value = q :=
  heq ▸ le_antisymm (h.value_le hy heq.ge) (h.le_value hy heq.le)

end IsNearest

theorem value_of_nonneg {x : Binary64} (h : 0 ≤ x.value) : x.value = x.magnitude / one := by
  rw [← abs_value, abs_of_nonneg h]

theorem value_eq_natCast_iff {x : Binary64} {n : ℕ} (hfinite : x.isFinite = true) (hnonneg : 0 ≤ x.value) :
    x.value = n ↔ x.isWhole = true ∧ n = x.wholePart := by
  have hone := one_pos
  rw [value_of_nonneg hnonneg, isWhole, wholePart, hfinite, Bool.true_and, decide_eq_true_eq]
  generalize one = unit at *
  have hunit : 0 < unit := Nat.cast_pos.1 hone
  rw [div_eq_iff hone.ne', ← Nat.cast_mul, Nat.cast_inj, ← Nat.dvd_iff_mod_eq_zero]
  constructor
  · rintro h
    rw [h]
    exact ⟨Nat.dvd_mul_left _ _, (Nat.mul_div_cancel n hunit).symm⟩
  · rintro ⟨hdvd, rfl⟩
    exact (Nat.div_mul_cancel hdvd).symm

theorem isNearest_ofInt {i : Int} (h : i.natAbs < UInt64.size) : (ofInt i).IsNearest i := by
  have hfraction : fraction (i < 0) i.natAbs 1 = i := by
    rw [fraction, Nat.cast_one, div_one, Nat.cast_natAbs, Int.cast_abs]
    by_cases hi : i < 0
    · rw [if_pos (decide_eq_true hi), abs_of_neg (Int.cast_lt_zero.2 hi), neg_neg]
    · rw [if_neg (by simpa using hi), abs_of_nonneg (Int.cast_nonneg (not_lt.1 hi))]
  exact hfraction ▸ isNearest_nearest Nat.one_pos (isFinite_ofInt h)

theorem isNearest_times {x : Binary64} {k : Nat} (h : (x.times k).isFinite = true) :
    (x.times k).IsNearest (k * x.value) := by
  have hfraction : fraction x.negative (x.magnitude * k) one = k * x.value := by
    rw [value_eq_fraction, fraction, fraction, Nat.cast_mul]
    split <;> ring
  exact hfraction ▸ isNearest_nearest (Nat.cast_pos.1 one_pos) h

theorem isNearest_mul {x y : Binary64} (h : (x.mul y).isFinite = true) :
    (x.mul y).IsNearest (x.value * y.value) := by
  have hfraction : fraction (x.negative != y.negative) (x.magnitude * y.magnitude) (one * one) =
      x.value * y.value := by
    rw [value_eq_fraction, value_eq_fraction, fraction, fraction, fraction, Nat.cast_mul,
      Nat.cast_mul, mul_div_mul_comm]
    generalize (x.magnitude : ℚ) / one = p
    generalize (y.magnitude : ℚ) / one = q
    cases x.negative <;> cases y.negative <;> simp
  have hone : 0 < one := Nat.cast_pos.1 one_pos
  exact hfraction ▸ isNearest_nearest (Nat.mul_pos hone hone) h

theorem isNearest_div {x y : Binary64} (hy : 0 < y.magnitude) (h : (x.div y).isFinite = true) :
    (x.div y).IsNearest (x.value / y.value) := by
  have hfraction : fraction (x.negative != y.negative) x.magnitude y.magnitude =
      x.value / y.value := by
    have hquotient : (x.magnitude / one / (y.magnitude / one) : ℚ) = x.magnitude / y.magnitude :=
      div_div_div_cancel_right₀ one_pos.ne' _ _
    rw [value_eq_fraction, value_eq_fraction, fraction, fraction, fraction, ← hquotient]
    generalize (x.magnitude : ℚ) / one = p
    generalize (y.magnitude : ℚ) / one = q
    cases x.negative <;> cases y.negative <;> simp [neg_div, div_neg]
  exact hfraction ▸ isNearest_nearest hy h

/-! ### Integers

An integer of up to 53 bits is a binary64 number. -/

theorem absolute_roundedBits_of_dvd {units : Nat}
    (h : Nat.pow 2 (surplusBits units) ∣ units) : absolute (roundedBits units 1) = units := by
  have hrange := roundedSignificand_range units 1
  have hround : divHalfEven units (Nat.pow 2 (surplusBits units)) =
      units / Nat.pow 2 (surplusBits units) := by
    rw [divHalfEven, Nat.mod_eq_zero_of_dvd h]
    exact if_pos (Nat.two_pow_pos _)
  rw [roundedBits, absolute_of_parts hrange.1 hrange.2, roundedSignificand, Nat.div_one,
    Nat.one_mul, hround, Nat.div_mul_cancel h]

theorem two_pow_surplusBits_dvd {n k : Nat} (h : n ≤ Nat.pow 2 53) :
    Nat.pow 2 (surplusBits (n * Nat.pow 2 k)) ∣ n * Nat.pow 2 k := by
  have hsurplus : ∀ {j : Nat}, n < Nat.pow 2 (53 + j) →
      surplusBits (n * Nat.pow 2 k) ≤ j + k := fun {j} hlt => by
    have hunits : n * Nat.pow 2 k < Nat.pow 2 (53 + j + k) := by
      rw [Nat.pow_eq, Nat.pow_eq, Nat.pow_add]
      exact Nat.mul_lt_mul_of_pos_right hlt (Nat.two_pow_pos k)
    have := surplusBits_le hunits
    omega
  rcases Nat.lt_or_eq_of_le h with hlt | rfl
  · have hle := hsurplus (j := 0) hlt
    exact Nat.dvd_mul_left_of_dvd (Nat.pow_dvd_pow 2 (by omega)) n
  · have hle := hsurplus (j := 1) (by decide)
    refine Nat.dvd_trans (Nat.pow_dvd_pow 2 hle) ?_
    rw [Nat.pow_add]
    exact Nat.mul_dvd_mul (by decide) (Nat.dvd_refl _)

/-- A number is not rounded if at most 53 of its bits stand before zeros. -/
theorem magnitude_nearest {negative : Bool} {n j : Nat} (h : n ≤ Nat.pow 2 53)
    (hfinite : (nearest negative (n * Nat.pow 2 j) 1).isFinite = true) :
    (nearest negative (n * Nat.pow 2 j) 1).magnitude = n * Nat.pow 2 j * one := by
  obtain ⟨k, -, hone⟩ := exists_one_eq
  rw [isFinite_iff, unsigned_nearest, min_lt_iff] at hfinite
  rw [magnitude_eq_absolute, unsigned_nearest,
    Nat.min_eq_left (Nat.le_of_lt (hfinite.resolve_right (Nat.lt_irrefl _)))]
  refine absolute_roundedBits_of_dvd ?_
  have hunits : n * Nat.pow 2 j * one = n * Nat.pow 2 (j + k) := by
    rw [hone, Nat.mul_assoc, Nat.pow_eq, Nat.pow_eq, Nat.pow_eq, Nat.pow_add]
  rw [hunits]
  exact two_pow_surplusBits_dvd h

theorem magnitude_nearest_of_le {negative : Bool} {n : Nat} (h : n ≤ Nat.pow 2 53) :
    (nearest negative n 1).magnitude = n * one := by
  have hword : n < UInt64.size := Nat.lt_of_le_of_lt h (by decide)
  have hshift : n * Nat.pow 2 0 = n := Nat.mul_one n
  have hfinite : (nearest negative (n * Nat.pow 2 0) 1).isFinite = true :=
    hshift.symm ▸ isFinite_nearest_word hword negative
  have hmagnitude := magnitude_nearest h hfinite
  rwa [hshift] at hmagnitude

theorem value_nearest_of_le {negative : Bool} {n : Nat} (h : n ≤ Nat.pow 2 53) :
    (nearest negative n 1).value = if negative then -(n : ℚ) else n := by
  rw [value_eq_fraction, negative_nearest, magnitude_nearest_of_le h, fraction, Nat.cast_mul,
    mul_div_cancel_right₀ _ one_pos.ne']

theorem value_ofInt {i : Int} (h : i.natAbs ≤ 2 ^ 53) : (ofInt i).value = i := by
  rw [ofInt, value_nearest_of_le h, Nat.cast_natAbs, Int.cast_abs]
  by_cases hi : i < 0
  · rw [if_pos (decide_eq_true hi), abs_of_neg (Int.cast_lt_zero.2 hi), neg_neg]
  · rw [if_neg (by simpa using hi), abs_of_nonneg (Int.cast_nonneg (not_lt.1 hi))]

/-! ### Rounded products

Rounding does not lose the order of what is rounded. So the numbers whose product with `k` comes to
`n` at least are those from some number on, and which one that is can be seen from two numbers next
to each other. -/

theorem min_roundedBits_mono {units units' den : Nat} (hden : 0 < den) (h : units ≤ units') :
    min (roundedBits units den) infinityBits ≤ min (roundedBits units' den) infinityBits := by
  have hle := fun units : Nat => Nat.min_le_right (roundedBits units den) infinityBits
  have hnearest := fun (units bits : Nat) (hbits : bits ≤ infinityBits)
    (hne : bits ≠ min (roundedBits units den) infinityBits) => gap_min_roundedBits hden hbits hne
  dsimp only at hnearest
  by_contra hlt
  have hlt := Nat.not_le.1 hlt
  have habove := Nat.mul_lt_mul_of_pos_right (strictMono_absolute hlt) hden
  have hlow := hnearest units _ (hle units') (Nat.ne_of_lt hlt)
  have hhigh := hnearest units' _ (hle units) (Nat.ne_of_gt hlt)
  have hne : units ≠ units' := by
    rintro rfl
    exact Nat.lt_irrefl _ hlt
  unfold gap at hlow hhigh
  omega

section

variable {x y : Binary64} {k : Nat} (h : x.magnitude ≤ y.magnitude)
include h

theorem unsigned_times_mono : (x.times k).unsigned ≤ (y.times k).unsigned := by
  rw [times, times, unsigned_nearest, unsigned_nearest]
  exact min_roundedBits_mono (Nat.cast_pos.1 one_pos)
    (Nat.mul_le_mul_right _ (Nat.mul_le_mul_right k h))

theorem isFinite_times_of_le (hy : (y.times k).isFinite = true) : (x.times k).isFinite = true :=
  isFinite_iff.2 (Nat.lt_of_le_of_lt (unsigned_times_mono h) (isFinite_iff.1 hy))

theorem roundHalfUp_times_mono : (x.times k).roundHalfUp ≤ (y.times k).roundHalfUp := by
  have hmagnitude : (x.times k).magnitude ≤ (y.times k).magnitude := by
    rw [magnitude_eq_absolute, magnitude_eq_absolute]
    exact strictMono_absolute.monotone (unsigned_times_mono h)
  exact Nat.div_le_div_right (Nat.add_le_add_right (Nat.mul_le_mul_left 2 hmagnitude) one)

end

/-- Whole numbers are rounded to as values are. -/
theorem cast_roundHalfUp (x : Binary64) : (x.roundHalfUp : ℤ) = round |x.value| := by
  have hone := one_pos
  rw [round_eq, abs_value, roundHalfUp]
  generalize one = unit at *
  have hfraction : (x.magnitude / unit + 1 / 2 : ℚ) =
      ((2 * x.magnitude + unit : ℕ) : ℤ) / ((2 * unit : ℕ) : ℚ) := by
    rw [div_add_div _ _ hone.ne' two_ne_zero]
    push_cast
    ring
  rw [hfraction, Rat.floor_intCast_div_natCast, Int.natCast_ediv]

/-- `n` is `k` times `x`, rounded to a binary64 number first and then to a whole one. -/
def RoundsTo (x : Binary64) (k n : ℕ) : Prop :=
  ∃ product : Binary64, product.IsNearest (k * x.value) ∧ (n : ℤ) = round product.value

theorem roundsTo_times {x : Binary64} {k : ℕ} (hfinite : (x.times k).isFinite = true)
    (hnonneg : 0 ≤ x.value) : x.RoundsTo k (x.times k).roundHalfUp := by
  have hnearest := isNearest_times hfinite
  have hproduct : 0 ≤ (x.times k).value :=
    value_zero ▸ hnearest.le_value (by decide) (value_zero ▸ by positivity)
  exact ⟨_, hnearest, by rw [cast_roundHalfUp, abs_of_nonneg hproduct]⟩

/-- `low` times `k` is below `n - 1/2`, and the next number `high` times `k` is not. The rounded
products lie to the same sides. -/
structure Parts (low high : Binary64) (k n : Nat) : Prop where
  next : high.unsigned = low.unsigned + 1
  low_lt : 2 * (low.magnitude * k) + one < 2 * n * one
  le_high : 2 * n * one ≤ 2 * (high.magnitude * k) + one
  roundHalfUp_low : (low.times k).roundHalfUp < n
  le_roundHalfUp_high : n ≤ (high.times k).roundHalfUp

namespace Parts

variable {low high : Binary64} {k n : Nat} (h : Parts low high k n) (x : Binary64)
include h

theorem le_low_or_high_le : x.magnitude ≤ low.magnitude ∨ high.magnitude ≤ x.magnitude := by
  rw [magnitude_eq_absolute, magnitude_eq_absolute, magnitude_eq_absolute, h.next,
    strictMono_absolute.le_iff_le, strictMono_absolute.le_iff_le]
  omega

/-- Whether the product comes to `n` is not changed by rounding it first. -/
theorem le_roundHalfUp_times_iff :
    n ≤ (x.times k).roundHalfUp ↔ (n : ℤ) ≤ round (k * |x.value|) := by
  have hproduct : (n : ℤ) ≤ round (k * |x.value|) ↔
      2 * n * one ≤ 2 * (x.magnitude * k) + one := by
    have hone := one_pos
    rw [abs_value, round_eq, Int.le_floor, Int.cast_natCast]
    generalize one = unit at *
    rw [← mul_div_assoc, div_add_div _ _ hone.ne' two_ne_zero, le_div_iff₀ (by linarith),
      ← Nat.cast_le (α := ℚ)]
    push_cast
    constructor <;> intro h <;> linarith
  rw [hproduct]
  rcases h.le_low_or_high_le x with hle | hle
  · have hround := Nat.lt_of_le_of_lt (roundHalfUp_times_mono hle) h.roundHalfUp_low
    have hbelow := Nat.mul_le_mul_right k hle
    have hlow := h.low_lt
    exact iff_of_false (Nat.not_le.2 hround) (by omega)
  · have hround := Nat.le_trans h.le_roundHalfUp_high (roundHalfUp_times_mono hle)
    have habove := Nat.mul_le_mul_right k hle
    have hhigh := h.le_high
    exact iff_of_true hround (by omega)

end Parts

end Countersign.Binary64
