import Countersign.Proofs.Gas.Unbounded
import Countersign.Proofs.Json.Token
import Mathlib.Data.List.Induction
import Mathlib.Tactic.FieldSimp

/-! The text of a ratio is a decimal of as few digits as it takes. The thousandths are written with
three digits and lose the zeros at their end, so that nothing is left of them where the ratio is a
whole number. Main statement: `text_exact`. -/

namespace Countersign

namespace Decimal

/-! ### Zeros at the end -/

theorem trimmed_append (ds : List Digit) (d : Digit) :
    trimmed (ds ++ [d]) = if d = Digit.zero then trimmed ds else ds ++ [d] := by
  rw [trimmed, List.reverse_append, List.reverse_singleton, List.singleton_append,
    List.dropWhile_cons]
  split
  · next h => rw [if_pos (of_decide_eq_true h), trimmed]
  · next h => rw [if_neg (mt decide_eq_true h), List.reverse_cons, List.reverse_reverse]

theorem length_trimmed_le (ds : List Digit) : (trimmed ds).length ≤ ds.length := by
  rw [trimmed, List.length_reverse, ← ds.length_reverse]
  exact (List.dropWhile_sublist _).length_le

theorem getLast?_trimmed (ds : List Digit) : (trimmed ds).getLast? ≠ some Digit.zero := by
  induction ds using List.reverseRecOn with
  | nil => nofun
  | append_singleton ds d ih =>
    rw [trimmed_append]
    split
    · exact ih
    · next hd =>
      rw [List.getLast?_concat]
      exact fun h => hd (Option.some.inj h)

/-- What digits stand for after a point. -/
def fractionValue (ds : List Digit) : ℚ := value ds / 10 ^ ds.length

theorem fractionValue_append_zero (ds : List Digit) :
    fractionValue (ds ++ [Digit.zero]) = fractionValue ds := by
  have hzero : Digit.zero.val = 0 := rfl
  rw [fractionValue, value_append, hzero, List.length_append, List.length_singleton, Nat.add_zero,
    Nat.cast_mul, Nat.cast_ofNat, fractionValue, pow_succ]
  field_simp

theorem fractionValue_trimmed (ds : List Digit) :
    fractionValue (trimmed ds) = fractionValue ds := by
  induction ds using List.reverseRecOn with
  | nil => rfl
  | append_singleton ds d ih =>
    rw [trimmed_append]
    split
    · next hd => rw [ih, hd, fractionValue_append_zero]
    · rfl

/-! ### Texts of decimals -/

/-- The text is digits, with a point and more digits behind them or nothing, and stands for `x`. -/
def Denotes (text : List Char) (x : ℚ) : Prop :=
  ∃ whole fraction : List Digit, whole ≠ [] ∧
    text = whole.map Digit.char ++ Numeral.fractionText fraction ∧
    x = value whole + fractionValue fraction

theorem takeDigits_append_fractionText (whole fraction : List Digit) :
    Numeral.takeDigits (whole.map Digit.char ++ Numeral.fractionText fraction) =
      (whole, Numeral.fractionText fraction) := by
  have hhead := @Numeral.head?_fractionText_append [] nofun fraction
  rw [List.append_nil] at hhead
  exact Numeral.takeDigits_append hhead whole

theorem fractionText_injective {fraction fraction' : List Digit}
    (h : Numeral.fractionText fraction = Numeral.fractionText fraction') :
    fraction = fraction' := by
  have hread := @Numeral.readFraction?_append [] (by simp) fraction
  rw [h, Numeral.readFraction?_append (by simp)] at hread
  exact (Prod.mk.inj (Option.some.inj hread)).1.symm

theorem Denotes.unique {text : List Char} {x y : ℚ} (hx : Denotes text x) (hy : Denotes text y) :
    x = y := by
  obtain ⟨whole, fraction, -, rfl, rfl⟩ := hx
  obtain ⟨whole', fraction', -, htext, rfl⟩ := hy
  have htake := takeDigits_append_fractionText whole fraction
  rw [htext, takeDigits_append_fractionText] at htake
  obtain ⟨rfl, hfraction⟩ := Prod.mk.inj htake
  rw [fractionText_injective hfraction]

theorem char_ofNat (n : Nat) : Digit.char (Fin.ofNat 10 n) = Nat.digitChar (n % 10) := by
  have hchar : ∀ d : Digit, d.char = Nat.digitChar d.val := by decide
  exact hchar _

/-- A number is written with its decimal digits. -/
theorem map_char_digits (n : Nat) : (digits n).map Digit.char = Nat.toDigits 10 n := by
  fun_induction digits n with
  | case1 n h =>
    rw [List.map_singleton, char_ofNat, Nat.mod_eq_of_lt h, Nat.toDigits_of_lt_base h]
  | case2 n h ih =>
    rw [List.map_append, ih, List.map_singleton, char_ofNat,
      Nat.toDigits_eq_if (b := 10) (n := n) (by decide), if_neg h]

end Decimal

/-! ### Ratios -/

namespace GasRatio

variable (r : GasRatio)

theorem toList_text : r.text.toList =
    (Decimal.digits (r.milli.toNat / 1000)).map Digit.char ++
      Numeral.fractionText r.numeral.fraction := by
  have hexponent : Numeral.exponentText r.numeral.exponent = [] := rfl
  have hsign : (if r.numeral.negative then ['-'] else []) = [] := rfl
  rw [text, String.toList_ofList, Numeral.text_eq, hexponent, hsign, List.nil_append,
    List.append_nil]
  rfl

theorem fractionValue_numeral :
    Decimal.fractionValue r.numeral.fraction = ((r.milli.toNat % 1000 : ℕ) : ℚ) / 1000 := by
  rw [numeral, Decimal.fractionValue_trimmed, Decimal.fractionValue, Decimal.value_padded,
    Decimal.length_padded]
  have hmod : r.milli.toNat % 1000 % Nat.pow 10 3 = r.milli.toNat % 1000 := Nat.mod_mod _ 1000
  rw [hmod]
  norm_num

theorem value_mul_thousand : r.value * 1000 = r.milli.toNat := by
  rw [value]
  exact div_mul_cancel₀ _ (by norm_num)

theorem value_injective {r s : GasRatio} (h : r.value = s.value) : r = s := by
  have hmilli : (r.milli.toNat : ℚ) = s.milli.toNat := by
    rw [← value_mul_thousand, h, value_mul_thousand]
  exact congrArg mk (UInt32.toNat_inj.1 (Nat.cast_injective hmilli))

theorem floor_value : ⌊r.value⌋₊ = r.milli.toNat / 1000 := by
  rw [value]
  exact_mod_cast Nat.floor_div_eq_div (K := ℚ) r.milli.toNat 1000

/-- The whole part and the thousandths make the ratio. -/
theorem value_eq :
    r.value = (r.milli.toNat / 1000 : ℕ) + Decimal.fractionValue r.numeral.fraction := by
  have hparts : 1000 * (r.milli.toNat / 1000) + r.milli.toNat % 1000 = r.milli.toNat :=
    Nat.div_add_mod _ _
  rw [fractionValue_numeral, value, ← hparts, Nat.cast_add, Nat.cast_mul, add_div,
    Nat.mul_add_mod, Nat.mod_mod, hparts]
  norm_num

theorem denotes_text : Decimal.Denotes r.text.toList r.value :=
  ⟨_, _, Decimal.digits_ne_nil _, r.toList_text, by rw [Decimal.value_digits, value_eq]⟩

theorem fraction_numeral_eq_nil_iff : r.numeral.fraction = [] ↔ ∃ n : ℕ, r.value = n := by
  constructor
  · intro hnil
    have hzero : Decimal.fractionValue [] = 0 := zero_div _
    exact ⟨r.milli.toNat / 1000, by rw [value_eq, hnil, hzero, add_zero]⟩
  · rintro ⟨n, hn⟩
    have hmilli : r.milli.toNat = n * 1000 := by
      have hmul := r.value_mul_thousand
      rw [hn] at hmul
      exact_mod_cast hmul.symm
    -- No thousandths are three zeros, and none of them is kept.
    rw [numeral, hmilli, Nat.mul_mod_left]
    rfl

/-- The text of a ratio is its whole part in decimal digits, and behind it, unless the ratio is a
whole number, a point and up to three digits of which the last is not zero. Read as a decimal it is
the ratio and nothing else, so that no two ratios have one text. -/
theorem text_exact (r : GasRatio) :
    (∃ fraction : List Digit,
      r.text.toList = Nat.toDigits 10 ⌊r.value⌋₊ ++ Numeral.fractionText fraction ∧
      (fraction = [] ↔ ∃ n : ℕ, r.value = n) ∧
      fraction.length ≤ 3 ∧ fraction.getLast? ≠ some Digit.zero) ∧
    (∀ x, Decimal.Denotes r.text.toList x ↔ x * 1000 = r.milli.toNat) ∧
    ∀ s : GasRatio, r.text = s.text → r = s := by
  refine ⟨⟨r.numeral.fraction, ?_, r.fraction_numeral_eq_nil_iff, ?_, ?_⟩, fun x => ?_,
    fun s h => ?_⟩
  · rw [toList_text, Decimal.map_char_digits, floor_value]
  · exact (Decimal.length_trimmed_le _).trans_eq (Decimal.length_padded _ _)
  · exact Decimal.getLast?_trimmed _
  · constructor
    · intro h
      rw [h.unique r.denotes_text, value_mul_thousand]
    · intro h
      have hx : x = r.value := by
        rw [value, ← h, mul_div_cancel_right₀ _ (by norm_num)]
      exact hx ▸ r.denotes_text
  · have hs := s.denotes_text
    rw [← h] at hs
    exact value_injective (r.denotes_text.unique hs)

end GasRatio

end Countersign
