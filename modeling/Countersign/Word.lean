/-! The 64-bit words that gas figures, nonces and chain ids are counted in. Scaled figures are
computed in words of twice the width and come back capped at the largest word. -/

namespace Countersign.Word

def top : UInt64 := 18446744073709551615

/-- The word nearest to `n`: `n` itself, or the largest word if `n` does not fit. -/
def cap (n : Nat) : UInt64 :=
  if h : n < UInt64.size then UInt64.ofNatLT n h else top

def ofNat? (n : Nat) : Option UInt64 :=
  if h : n < UInt64.size then some (UInt64.ofNatLT n h) else none

/-- The word after `w`; the largest word has none and stays. -/
def next (w : UInt64) : UInt64 := cap (w.toNat + 1)

theorem toNat_cap (n : Nat) : (cap n).toNat = min n (UInt64.size - 1) := by
  unfold cap
  split
  · rw [UInt64.toNat_ofNatLT]; omega
  · rw [show top.toNat = UInt64.size - 1 from rfl]; omega

theorem cap_le_cap {n m : Nat} (h : n ≤ m) : cap n ≤ cap m := by
  rw [UInt64.le_iff_toNat_le, toNat_cap, toNat_cap]
  omega

theorem toNat_next (w : UInt64) : (next w).toNat = min (w.toNat + 1) (UInt64.size - 1) :=
  toNat_cap _

theorem ofNat?_eq_some_iff {n : Nat} {w : UInt64} : ofNat? n = some w ↔ w.toNat = n := by
  unfold ofNat?
  split
  · next h =>
    constructor
    · rintro ⟨rfl⟩; exact UInt64.toNat_ofNatLT
    · rintro rfl; simp
  · next h =>
    have := w.toNat_lt_size
    constructor
    · nofun
    · rintro rfl; omega

/-! ### Words of twice the width -/

/-- A word widened to 128 bits, so that the product of two words does not overflow. -/
def wide (w : UInt64) : BitVec 128 := BitVec.ofNat 128 w.toNat

/-- The quotient of two wide words, rounded up. -/
def ceilDiv (a b : BitVec 128) : BitVec 128 :=
  if a % b = 0 then a / b else a / b + 1

@[simp] theorem toNat_wide (w : UInt64) : (wide w).toNat = w.toNat := by
  have := w.toNat_lt
  simp only [wide, BitVec.toNat_ofNat]
  omega

end Countersign.Word
