/-! Decimal digits and written numbers. `Decimal.digits` and `Decimal.value` go between a number and
its digits, and `Numeral` is a number as it is written: sign, whole part, fraction and exponent. -/

namespace Countersign

abbrev Digit := Fin 10

namespace Digit

def zero : Digit := ⟨0, by decide⟩

def char (d : Digit) : Char := Char.ofNat (48 + d.val)

def ofChar? (c : Char) : Option Digit :=
  if h : 48 ≤ c.toNat ∧ c.toNat < 58 then some ⟨c.toNat - 48, by omega⟩ else none

@[simp] theorem ofChar?_char (d : Digit) : ofChar? d.char = some d := by
  revert d; decide

end Digit

namespace Decimal

/-- The number with digits `ds`, most significant first. -/
def value (ds : List Digit) : Nat :=
  ds.foldl (fun n d => 10 * n + d.val) 0

/-- The digits of `n` without leading zeros; zero has the single digit 0. -/
def digits (n : Nat) : List Digit :=
  if n < 10 then [Fin.ofNat 10 n] else digits (n / 10) ++ [Fin.ofNat 10 n]

/-- The last `count` digits of `n`, leading zeros included. -/
def padded : (count : Nat) → (n : Nat) → List Digit
  | 0, _ => []
  | count + 1, n => padded count (n / 10) ++ [Fin.ofNat 10 n]

/-- The digits without the zeros at their end. -/
def trimmed (ds : List Digit) : List Digit :=
  (ds.reverse.dropWhile (· = Digit.zero)).reverse

theorem value_append (ds : List Digit) (d : Digit) :
    value (ds ++ [d]) = 10 * value ds + d.val := by
  simp [value, List.foldl_append]

@[simp] theorem value_digits (n : Nat) : value (digits n) = n := by
  fun_induction digits n with
  | case1 n h => simp only [value, List.foldl, Fin.val_ofNat]; omega
  | case2 n h ih => rw [value_append, ih, Fin.val_ofNat]; omega

theorem digits_ne_nil (n : Nat) : digits n ≠ [] := by
  rw [digits]; split <;> simp

@[simp] theorem length_padded (count n : Nat) : (padded count n).length = count := by
  induction count generalizing n with
  | zero => rfl
  | succ count ih => simp [padded, ih]

theorem value_padded (count n : Nat) : value (padded count n) = n % Nat.pow 10 count := by
  induction count generalizing n with
  | zero => simp [padded, value, Nat.mod_one]
  | succ count ih =>
    rw [padded, value_append, ih, Fin.val_ofNat, Nat.pow_eq, Nat.pow_eq, Nat.pow_succ', Nat.mod_mul]
    omega

end Decimal

/-- A written number. The fraction is empty if no point is written. -/
structure Numeral where
  negative : Bool
  whole : Nat
  fraction : List Digit
  exponent : Option Int
deriving DecidableEq

namespace Numeral

def ofInt (i : Int) : Numeral := ⟨decide (i < 0), i.natAbs, [], none⟩

def ofNat (n : Nat) : Numeral := ⟨false, n, [], none⟩

/-- The digits of both parts, read as one whole number. -/
def coefficient (n : Numeral) : Nat :=
  n.whole * Nat.pow 10 n.fraction.length + Decimal.value n.fraction

/-- The power of ten by which the coefficient is multiplied. -/
def scale (n : Numeral) : Int := n.exponent.getD 0 - n.fraction.length

/-- The integer that is written without point and exponent. A signed zero is none. -/
def int? (n : Numeral) : Option Int :=
  if n.fraction = [] ∧ n.exponent = none ∧ ¬(n.negative ∧ n.whole = 0) then
    some (if n.negative then -n.whole else n.whole)
  else none

/-- The byte that is written as an integer. -/
def byte? (n : Numeral) : Option UInt8 := do
  let i ← n.int?
  if 0 ≤ i ∧ i < 256 then some (UInt8.ofNat i.toNat) else none

/-- The text of a number: an exponent has a lower-case mark and always a sign. -/
def text (n : Numeral) : List Char :=
  (if n.negative then ['-'] else []) ++ (Decimal.digits n.whole).map Digit.char ++
  (if n.fraction = [] then [] else '.' :: n.fraction.map Digit.char) ++
  (match n.exponent with
   | none => []
   | some e => 'e' :: (if e < 0 then '-' else '+') :: (Decimal.digits e.natAbs).map Digit.char)

/-- The digits at the start of a text, and what follows them. -/
def takeDigits : List Char → List Digit × List Char
  | [] => ([], [])
  | c :: cs =>
    match Digit.ofChar? c with
    | some d => (d :: (takeDigits cs).1, (takeDigits cs).2)
    | none => ([], c :: cs)

/-- A whole part: some digits, the first of them zero only if it stands alone. -/
def readWhole? (cs : List Char) : Option (Nat × List Char) :=
  match takeDigits cs with
  | ([], _) => none
  | ([d], rest) => some (d.val, rest)
  | (d :: ds, rest) => if d = Digit.zero then none else some (Decimal.value (d :: ds), rest)

/-- A point with at least one digit after it, or nothing. -/
def readFraction? : List Char → Option (List Digit × List Char)
  | '.' :: cs =>
    match takeDigits cs with
    | ([], _) => none
    | (ds, rest) => some (ds, rest)
  | cs => some ([], cs)

/-- A sign, if one is written; true is minus. -/
def takeSign : List Char → Bool × List Char
  | '-' :: cs => (true, cs)
  | '+' :: cs => (false, cs)
  | cs => (false, cs)

/-- An exponent mark with at least one digit after it, or nothing. -/
def readExponent? : List Char → Option (Option Int × List Char)
  | [] => some (none, [])
  | c :: cs =>
    if c = 'e' ∨ c = 'E' then
      match takeDigits (takeSign cs).2 with
      | ([], _) => none
      | (ds, rest) =>
        some (some (if (takeSign cs).1 then -(Decimal.value ds : Int) else Decimal.value ds), rest)
    else some (none, c :: cs)

/-- The number at the start of a text, and what follows it. -/
def read? (cs : List Char) : Option (Numeral × List Char) :=
  let (negative, cs) := match cs with
    | '-' :: cs => (true, cs)
    | cs => (false, cs)
  do
    let (whole, cs) ← readWhole? cs
    let (fraction, cs) ← readFraction? cs
    let (exponent, cs) ← readExponent? cs
    return (⟨negative, whole, fraction, exponent⟩, cs)

theorem length_takeDigits (cs : List Char) :
    (takeDigits cs).1.length + (takeDigits cs).2.length = cs.length := by
  induction cs with
  | nil => rfl
  | cons c cs ih =>
    simp only [takeDigits]
    split
    · simp only [List.length_cons]; omega
    · simp

theorem length_takeSign (cs : List Char) : (takeSign cs).2.length ≤ cs.length := by
  unfold takeSign; split <;> simp

theorem length_readWhole? {cs rest : List Char} {n : Nat} (h : readWhole? cs = some (n, rest)) :
    rest.length < cs.length := by
  have := length_takeDigits cs
  unfold readWhole? at h
  split at h
  · cases h
  · next heq => cases h; rw [heq] at this; simp at this; omega
  · next heq =>
    split at h
    · cases h
    · cases h; rw [heq] at this; simp at this; omega

theorem length_readFraction? {cs rest : List Char} {ds : List Digit}
    (h : readFraction? cs = some (ds, rest)) : rest.length ≤ cs.length := by
  unfold readFraction? at h
  split at h
  · next cs =>
    have := length_takeDigits cs
    split at h
    · cases h
    · next heq => cases h; rw [heq] at this; simp at this ⊢; omega
  · cases h; exact Nat.le_refl _

theorem length_readExponent? {cs rest : List Char} {e : Option Int}
    (h : readExponent? cs = some (e, rest)) : rest.length ≤ cs.length := by
  unfold readExponent? at h
  split at h
  · cases h; exact Nat.le_refl _
  · next c cs =>
    have h1 := length_takeDigits (takeSign cs).2
    have h2 := length_takeSign cs
    split at h
    · split at h
      · cases h
      · next heq => cases h; rw [heq] at h1; simp at h1 ⊢; omega
    · cases h; exact Nat.le_refl _

/-- Reading a number uses up at least one character. -/
theorem length_read? {cs rest : List Char} {n : Numeral} (h : read? cs = some (n, rest)) :
    rest.length < cs.length := by
  have key : ∀ {negative : Bool} {cs' : List Char}, cs'.length ≤ cs.length →
      (do let (whole, cs) ← readWhole? cs'
          let (fraction, cs) ← readFraction? cs
          let (exponent, cs) ← readExponent? cs
          return ((⟨negative, whole, fraction, exponent⟩ : Numeral), cs)) = some (n, rest) →
      rest.length < cs.length := by
    intro negative cs' hle h
    simp only [Option.bind_eq_bind, Option.bind_eq_some_iff, Prod.exists, pure,
      Option.some.injEq, Prod.mk.injEq] at h
    obtain ⟨w, r1, h1, f, r2, h2, e, r3, h3, -, rfl⟩ := h
    have := length_readWhole? h1
    have := length_readFraction? h2
    have := length_readExponent? h3
    omega
  unfold read? at h
  split at h
  next heq =>
    split at heq
    · cases heq; exact key (by simp) h
    · cases heq; exact key (Nat.le_refl _) h

end Numeral

end Countersign
