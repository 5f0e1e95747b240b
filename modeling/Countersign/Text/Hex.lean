/-! Bytes and words as hexadecimal text, written with lower-case digits and read in either case. -/

namespace Countersign.Text.Hex

def char (d : Fin 16) : Char :=
  if d.val < 10 then Char.ofNat (48 + d.val) else Char.ofNat (87 + d.val)

def digit (n : Nat) : Fin 16 := Fin.ofNat 16 n

def value? (c : Char) : Option (Fin 16) :=
  let n := c.toNat
  if h : 48 ≤ n ∧ n < 58 then some ⟨n - 48, by omega⟩
  else if h : 97 ≤ n ∧ n < 103 then some ⟨n - 87, by omega⟩
  else if h : 65 ≤ n ∧ n < 71 then some ⟨n - 55, by omega⟩
  else none

@[simp] theorem value?_char (d : Fin 16) : value? (char d) = some d := by
  revert d; decide

/-- The digits of a byte, the high half first. -/
def ofByte (b : UInt8) : List Char :=
  [char (digit (b.toNat / 16)), char (digit b.toNat)]

def ofBytes (bs : List UInt8) : List Char := bs.flatMap ofByte

/-- The bytes of a text with two digits to a byte. -/
def bytes? : List Char → Option (List UInt8)
  | [] => some []
  | [_] => none
  | a :: b :: cs => do
    let high ← value? a
    let low ← value? b
    let rest ← bytes? cs
    return UInt8.ofNat (16 * high.val + low.val) :: rest

/-- The number that a list of digits stands for. -/
def number (ds : List (Fin 16)) : Nat := ds.foldl (fun n d => 16 * n + d.val) 0

/-- The last `count` digits of `n`, leading zeros included. -/
def padded : (count n : Nat) → List (Fin 16)
  | 0, _ => []
  | count + 1, n => padded count (n / 16) ++ [digit n]

/-- The sixteen digits of a word. -/
def ofWord (w : UInt64) : List Char := (padded 16 w.toNat).map char

theorem bytes?_ofBytes (bs : List UInt8) : bytes? (ofBytes bs) = some bs := by
  induction bs with
  | nil => rfl
  | cons b bs ih =>
    rw [ofBytes] at ih
    have hb : 16 * (b.toNat / 16 % 16) + b.toNat % 16 = b.toNat := by
      have := b.toNat_lt
      omega
    simp only [ofBytes, ofByte, List.flatMap_cons, List.cons_append, List.nil_append, bytes?,
      value?_char, ih, Option.bind_eq_bind, Option.bind_some, pure, digit, Fin.val_ofNat, hb,
      UInt8.ofNat_toNat]

end Countersign.Text.Hex
