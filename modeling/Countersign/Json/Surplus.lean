import Countersign.Json.Token

/-! What may stand in an array behind the bytes that are wanted of it. One more item is looked at,
so that an array with too many bytes is refused. An item that is no byte is read only as far as it
takes to see that, and the array has to close there: behind a number, a word or a string that is
well formed, and else behind the character that is out of place. -/

namespace Countersign.Json.Surplus

/-- What follows the character at the start; one outside of ASCII stays. -/
def pastAscii : List Char → List Char
  | [] => []
  | c :: cs => if c.toNat < 0x80 then cs else c :: cs

/-- What follows the first `n` bytes of a text in UTF-8; a character that has more stays. -/
def pastBytes : (n : Nat) → List Char → List Char
  | _, [] => []
  | n, c :: cs => if 0 < n ∧ c.utf8Size ≤ n then pastBytes (n - c.utf8Size) cs else c :: cs

/-- What follows a word, or the first character that is not as the word has it. -/
def pastWord : (word : List Char) → List Char → List Char
  | [], cs => cs
  | _ :: _, [] => []
  | w :: ws, c :: cs => if c = w then pastWord ws cs else pastAscii (c :: cs)

/-! ### Strings -/

/-- Four hexadecimal digits and what follows them. -/
def unit? : List Char → Option (Fin 65536 × List Char)
  | a :: b :: c :: d :: cs => do
    return (hexUnit (← Text.Hex.value? a) (← Text.Hex.value? b) (← Text.Hex.value? c)
      (← Text.Hex.value? d), cs)
  | _ => none

/-- What follows the second half of a surrogate pair, behind the first one. The first part is
whether the string goes on. -/
def pastLowHalf : List Char → Bool × List Char
  | '\\' :: 'u' :: cs =>
    match unit? cs with
    | some (n, rest) => (Written.isLowSurrogate n, rest)
    | none => (false, pastBytes 4 cs)
  | '\\' :: cs => (false, pastAscii cs)
  | cs => (false, pastAscii cs)

/-- What follows an escape, behind its backslash. -/
def pastEscape : List Char → Bool × List Char
  | [] => (false, [])
  | 'u' :: cs =>
    match unit? cs with
    | some (n, rest) =>
      if Written.isHighSurrogate n then pastLowHalf rest else (!Written.isLowSurrogate n, rest)
    | none => (false, pastBytes 4 cs)
  | c :: cs => if (escaped? c).isSome then (true, cs) else (false, pastAscii (c :: cs))

theorem length_pastAscii (cs : List Char) : (pastAscii cs).length ≤ cs.length := by
  unfold pastAscii
  split
  · exact Nat.le_refl _
  · split <;> simp

theorem length_pastBytes (n : Nat) (cs : List Char) : (pastBytes n cs).length ≤ cs.length := by
  fun_induction pastBytes n cs with
  | case1 => simp
  | case2 n c cs h ih => simp only [List.length_cons]; omega
  | case3 => simp

theorem length_pastWord (word cs : List Char) : (pastWord word cs).length ≤ cs.length := by
  fun_induction pastWord word cs with
  | case1 => simp
  | case2 => simp
  | case3 ws c cs ih => simp only [List.length_cons]; omega
  | case4 w ws c cs h => exact length_pastAscii _

theorem length_unit? {cs rest : List Char} {n : Fin 65536} (h : unit? cs = some (n, rest)) :
    rest.length ≤ cs.length := by
  unfold unit? at h
  split at h
  · simp only [Option.bind_eq_bind, Option.bind_eq_some_iff, pure, Option.some.injEq,
      Prod.mk.injEq] at h
    obtain ⟨_, _, _, _, _, _, _, _, -, rfl⟩ := h
    simp only [List.length_cons]; omega
  · cases h

theorem length_pastLowHalf (cs : List Char) : (pastLowHalf cs).2.length ≤ cs.length := by
  unfold pastLowHalf
  split
  · next cs =>
    split
    · next h => have := length_unit? h; simp only [List.length_cons]; omega
    · have := length_pastBytes 4 cs; simp only [List.length_cons]; omega
  · next cs _ => have := length_pastAscii cs; simp only [List.length_cons]; omega
  · exact length_pastAscii _

theorem length_pastEscape (cs : List Char) : (pastEscape cs).2.length ≤ cs.length := by
  unfold pastEscape
  split
  · exact Nat.le_refl _
  · next cs =>
    split
    · next rest h =>
      have := length_unit? h
      split
      · have := length_pastLowHalf rest; simp only [List.length_cons]; omega
      · simp only [List.length_cons]; omega
    · have := length_pastBytes 4 cs; simp only [List.length_cons]; omega
  · next c cs _ =>
    have := length_pastAscii (c :: cs)
    split
    · simp
    · exact this

/-- What follows a string, behind its opening quote: behind the closing quote, a control character
or an escape that stands for no character. -/
def pastString (cs : List Char) : List Char :=
  match cs with
  | [] => []
  | c :: cs =>
    if c = '"' ∨ c.toNat < 0x20 then cs
    else if c = '\\' then
      if (pastEscape cs).1 then pastString (pastEscape cs).2 else (pastEscape cs).2
    else pastString cs
termination_by cs.length
decreasing_by
  · have := length_pastEscape cs
    simp only [List.length_cons]
    omega
  · simp

theorem length_pastString (cs : List Char) : (pastString cs).length ≤ cs.length := by
  fun_induction pastString cs with
  | case1 => simp
  | case2 => simp
  | case3 cs _ h ih =>
    have := length_pastEscape cs
    simp only [List.length_cons]
    omega
  | case4 cs _ h =>
    have := length_pastEscape cs
    simp only [List.length_cons]
    omega
  | case5 c cs _ _ ih => simp only [List.length_cons]; omega

/-! ### Numbers -/

/-- What follows an exponent, behind its mark. A positive one of a number that is not zero is read
up to the digit with which it leaves the range of 32-bit integers. -/
def pastExponent? (isZero : Bool) (cs : List Char) : Option (List Char) :=
  match Numeral.takeDigits (Numeral.takeSign cs).2 with
  | ([], rest) => some (pastAscii rest)
  | (ds, rest) =>
    if isZero || (Numeral.takeSign cs).1 || Decimal.value ds.dropLast ≤ 0x7FFFFFFF then some rest
    else none

/-- What follows a number, behind its digits with or without a fraction. -/
def pastDigits? (isZero : Bool) : List Char → Option (List Char)
  | [] => some []
  | c :: cs => if c = 'e' ∨ c = 'E' then pastExponent? isZero cs else some (c :: cs)

/-- What follows a number, behind its whole part. -/
def pastWhole? (isZero : Bool) : List Char → Option (List Char)
  | '.' :: cs =>
    match Numeral.takeDigits cs with
    | ([], rest) => some rest
    | (ds, rest) => pastDigits? (isZero && Decimal.value ds = 0) rest
  | cs => pastDigits? isZero cs

/-- What follows a number, behind its sign. A digit after a leading zero is refused. -/
def pastNumber? (cs : List Char) : Option (List Char) :=
  match Numeral.takeDigits cs with
  | ([], rest) => some (pastAscii rest)
  | ([d], rest) => pastWhole? (d = Digit.zero) rest
  | (d :: _, rest) => if d = Digit.zero then none else pastWhole? false rest

theorem length_pastExponent? {isZero : Bool} {cs rest : List Char}
    (h : pastExponent? isZero cs = some rest) : rest.length ≤ cs.length := by
  have h1 := Numeral.length_takeDigits (Numeral.takeSign cs).2
  have h2 := Numeral.length_takeSign cs
  unfold pastExponent? at h
  split at h
  · next r heq =>
    cases h
    have := length_pastAscii r
    rw [heq] at h1
    simp only [List.length_nil] at h1
    omega
  · next heq =>
    split at h
    · cases h; rw [heq] at h1; simp only at h1; omega
    · cases h

theorem length_pastDigits? {isZero : Bool} {cs rest : List Char}
    (h : pastDigits? isZero cs = some rest) : rest.length ≤ cs.length := by
  unfold pastDigits? at h
  split at h
  · cases h; exact Nat.le_refl _
  · split at h
    · have := length_pastExponent? h; simp only [List.length_cons]; omega
    · cases h; exact Nat.le_refl _

theorem length_pastWhole? {isZero : Bool} {cs rest : List Char}
    (h : pastWhole? isZero cs = some rest) : rest.length ≤ cs.length := by
  unfold pastWhole? at h
  split at h
  · next cs =>
    have h1 := Numeral.length_takeDigits cs
    split at h
    · next heq => cases h; rw [heq] at h1; simp only [List.length_nil] at h1; simp; omega
    · next heq =>
      have := length_pastDigits? h
      rw [heq] at h1
      simp only [List.length_cons] at h1 ⊢
      omega
  · exact length_pastDigits? h

theorem length_pastNumber? {cs rest : List Char} (h : pastNumber? cs = some rest) :
    rest.length ≤ cs.length := by
  have h1 := Numeral.length_takeDigits cs
  unfold pastNumber? at h
  split at h
  · next r heq =>
    cases h
    have := length_pastAscii r
    rw [heq] at h1
    simp only [List.length_nil] at h1
    omega
  · next heq => have := length_pastWhole? h; rw [heq] at h1; simp only at h1; omega
  · next heq =>
    split at h
    · cases h
    · have := length_pastWhole? h; rw [heq] at h1; simp only at h1; omega

/-! ### Items -/

/-- The text starts with a byte. -/
def startsWithByte (cs : List Char) : Bool :=
  (Numeral.read? cs).any fun p => p.1.byte?.isSome

/-- What follows an item. -/
def pastItem? : List Char → Option (List Char)
  | 'n' :: cs => some (pastWord ['u', 'l', 'l'] cs)
  | 't' :: cs => some (pastWord ['r', 'u', 'e'] cs)
  | 'f' :: cs => some (pastWord ['a', 'l', 's', 'e'] cs)
  | '"' :: cs => some (pastString cs)
  | '-' :: cs => pastNumber? cs
  | cs => if cs.head?.any fun c => (Digit.ofChar? c).isSome then pastNumber? cs else some cs

/-- What follows a comma behind the wanted bytes and the surplus item after it, if there is one: a
text that closes the array. -/
def rest? (cs : List Char) : Option (List Char) :=
  if startsWithByte (cs.dropWhile isSpace) then none
  else (pastItem? (cs.dropWhile isSpace)).filter fun rest =>
    (rest.dropWhile isSpace).head? = some ']'

theorem length_pastItem? {cs rest : List Char} (h : pastItem? cs = some rest) :
    rest.length ≤ cs.length := by
  unfold pastItem? at h
  split at h
  · cases h; exact Nat.le_succ_of_le (length_pastWord _ _)
  · cases h; exact Nat.le_succ_of_le (length_pastWord _ _)
  · cases h; exact Nat.le_succ_of_le (length_pastWord _ _)
  · cases h; exact Nat.le_succ_of_le (length_pastString _)
  · have := length_pastNumber? h; simp only [List.length_cons]; omega
  · split at h
    · exact length_pastNumber? h
    · cases h; exact Nat.le_refl _

theorem length_rest? {cs rest : List Char} (h : rest? cs = some rest) :
    rest.length ≤ cs.length := by
  unfold rest? at h
  split at h
  · cases h
  · obtain ⟨h1, -⟩ := Option.filter_eq_some_iff.1 h
    have := length_pastItem? h1
    have := (List.dropWhile_sublist isSpace (l := cs)).length_le
    omega

end Countersign.Json.Surplus
