import Countersign.Word

/-! Amounts of the native currency, counted in its smallest unit and below 2^256. Sums and products
stop at the largest amount, so an amount that is out of range still compares as too large. The
operations named `wrapping` are for the places where the operands are known to fit. -/

namespace Countersign

def Wei.size : Nat := Nat.pow 2 256

structure Wei where
  toNat : Nat
  lt : toNat < Wei.size
deriving DecidableEq

namespace Wei

theorem ext {a b : Wei} (h : a.toNat = b.toNat) : a = b := by
  cases a; cases b; simp_all

theorem ext_iff {a b : Wei} : a = b ↔ a.toNat = b.toNat := ⟨fun h => h ▸ rfl, ext⟩

def top : Wei := ⟨size - 1, by decide⟩

def zero : Wei := ⟨0, by decide⟩

instance : Inhabited Wei := ⟨zero⟩

/-- The amount nearest to `n`: `n` itself, or the largest amount if `n` does not fit. -/
def cap (n : Nat) : Wei :=
  if h : n < size then ⟨n, h⟩ else top

def ofNat? (n : Nat) : Option Wei :=
  if h : n < size then some ⟨n, h⟩ else none

def ofWord (w : UInt64) : Wei :=
  ⟨w.toNat, Nat.lt_of_lt_of_le w.toNat_lt (by decide)⟩

/-- The amount as a 64-bit word, if it fits. -/
def word? (a : Wei) : Option UInt64 := Word.ofNat? a.toNat

/-- A sum stops at the largest amount. -/
instance : Add Wei := ⟨fun a b => cap (a.toNat + b.toNat)⟩

/-- A product stops at the largest amount. -/
instance : Mul Wei := ⟨fun a b => cap (a.toNat * b.toNat)⟩

/-- A quotient is rounded down, and is zero for a zero divisor. -/
instance : Div Wei :=
  ⟨fun a b => ⟨a.toNat / b.toNat, Nat.lt_of_le_of_lt (Nat.div_le_self _ _) a.lt⟩⟩

instance : LT Wei := ⟨fun a b => a.toNat < b.toNat⟩
instance : LE Wei := ⟨fun a b => a.toNat ≤ b.toNat⟩
instance (a b : Wei) : Decidable (a < b) := inferInstanceAs (Decidable (a.toNat < b.toNat))
instance (a b : Wei) : Decidable (a ≤ b) := inferInstanceAs (Decidable (a.toNat ≤ b.toNat))

/-- What is left of `a` after `b` is taken from it, if `b` is no more than `a`. -/
def minus? (a b : Wei) : Option Wei :=
  if b ≤ a then some ⟨a.toNat - b.toNat, Nat.lt_of_le_of_lt (Nat.sub_le _ _) a.lt⟩ else none

def wrappingAdd (a b : Wei) : Wei :=
  ⟨(a.toNat + b.toNat) % size, Nat.mod_lt _ (by decide)⟩

def wrappingSub (a b : Wei) : Wei :=
  ⟨(a.toNat + (size - b.toNat)) % size, Nat.mod_lt _ (by decide)⟩

theorem toNat_cap (n : Nat) : (cap n).toNat = min n (size - 1) := by
  unfold cap
  split
  · simp only; omega
  · rw [show top.toNat = size - 1 from rfl]; omega

theorem toNat_add (a b : Wei) : (a + b).toNat = min (a.toNat + b.toNat) (size - 1) :=
  toNat_cap _

theorem toNat_mul (a b : Wei) : (a * b).toNat = min (a.toNat * b.toNat) (size - 1) :=
  toNat_cap _

/-- A product of three stops at the largest amount once, wherever its factors stop on the way. -/
theorem toNat_mul_mul (a b c : Wei) :
    (a * b * c).toNat = min (a.toNat * b.toNat * c.toNat) (size - 1) := by
  rw [toNat_mul, toNat_mul]
  rcases Nat.le_total (a.toNat * b.toNat) (size - 1) with h | h
  · rw [Nat.min_eq_left h]
  · rw [Nat.min_eq_right h]
    rcases Nat.eq_zero_or_pos c.toNat with hc | hc
    · simp only [hc, Nat.mul_zero]
    · have hmul := Nat.mul_le_mul_right c.toNat h
      have hsize := Nat.le_mul_of_pos_right (size - 1) hc
      omega

@[simp] theorem toNat_div (a b : Wei) : (a / b).toNat = a.toNat / b.toNat := rfl

@[simp] theorem toNat_zero : zero.toNat = 0 := rfl

@[simp] theorem toNat_ofWord (w : UInt64) : (ofWord w).toNat = w.toNat := rfl

theorem lt_def {a b : Wei} : a < b ↔ a.toNat < b.toNat := Iff.rfl

theorem le_def {a b : Wei} : a ≤ b ↔ a.toNat ≤ b.toNat := Iff.rfl

/-- A sum that stops at the largest amount exceeds every smaller one. -/
theorem lt_add_iff {a b c : Wei} :
    a < b + c ↔ a.toNat < b.toNat + c.toNat ∧ a.toNat ≠ size - 1 := by
  have ha := a.lt
  rw [lt_def, toNat_add]
  omega

theorem minus?_eq_some_iff {a b c : Wei} :
    a.minus? b = some c ↔ a.toNat = b.toNat + c.toNat := by
  simp only [minus?, le_def]
  split
  · simp only [Option.some.injEq, ext_iff]; omega
  · simp only [reduceCtorEq, false_iff]; omega

theorem toNat_wrappingAdd {a b : Wei} (h : a.toNat + b.toNat < size) :
    (a.wrappingAdd b).toNat = a.toNat + b.toNat := Nat.mod_eq_of_lt h

theorem toNat_wrappingSub {a b : Wei} (h : b ≤ a) :
    (a.wrappingSub b).toNat = a.toNat - b.toNat := by
  have := a.lt
  have := b.lt
  simp only [le_def] at h
  simp only [wrappingSub]
  rw [show a.toNat + (size - b.toNat) = size + (a.toNat - b.toNat) by omega, Nat.add_mod_left,
    Nat.mod_eq_of_lt (by omega)]

end Wei

end Countersign
