import Countersign.Json.Printer
import Countersign.Json.Token

/-! Tokens read back as they are written. A number has no end of its own, so it does only where what
follows cannot go on with it; a string does where none of its pieces could be read as something
else, which holds of every encoded text. -/

namespace Countersign

/-! ### Numbers -/

namespace Digit

theorem notDigit_of_char {d : Digit} {c : Char} (hc : ofChar? c = none) : d.char ≠ c := by
  rintro rfl
  rw [ofChar?_char] at hc
  cases hc

end Digit

namespace Decimal

/-- Without a leading zero, unless the number is one digit. -/
theorem digits_eq_cons (n : Nat) :
    ∃ d ds, digits n = d :: ds ∧ (ds ≠ [] → d ≠ Digit.zero) := by
  fun_induction digits n with
  | case1 n h => exact ⟨_, [], rfl, fun h => absurd rfl h⟩
  | case2 n h ih =>
    obtain ⟨d, ds, he, hz⟩ := ih
    refine ⟨d, ds ++ [Fin.ofNat 10 n], by rw [he]; rfl, fun _ => ?_⟩
    cases ds with
    | cons => exact hz (by simp)
    | nil =>
      -- A single digit stands for `n / 10`, which is not zero.
      have hv : value (digits (n / 10)) = d.val := by rw [he]; simp [value]
      rw [value_digits] at hv
      rintro rfl
      have : n / 10 = 0 := hv
      omega

end Decimal

namespace Numeral

/-- What follows does not go on with a number. -/
def Ends (rest : List Char) : Prop :=
  ∀ c ∈ rest.head?, Digit.ofChar? c = none ∧ c ≠ '.' ∧ c ≠ 'e' ∧ c ≠ 'E'

theorem ends_nil : Ends [] := by simp [Ends]

theorem ends_cons {c : Char} {cs : List Char}
    (h : Digit.ofChar? c = none ∧ c ≠ '.' ∧ c ≠ 'e' ∧ c ≠ 'E') : Ends (c :: cs) := by
  simpa [Ends] using h

theorem takeDigits_of_ends {rest : List Char} (h : ∀ c ∈ rest.head?, Digit.ofChar? c = none) :
    takeDigits rest = ([], rest) := by
  cases rest with
  | nil => rfl
  | cons c rest => rw [takeDigits, h c (by simp)]

theorem takeDigits_append {rest : List Char} (h : ∀ c ∈ rest.head?, Digit.ofChar? c = none)
    (ds : List Digit) : takeDigits (ds.map Digit.char ++ rest) = (ds, rest) := by
  induction ds with
  | nil => exact takeDigits_of_ends h
  | cons d ds ih => rw [List.map_cons, List.cons_append, takeDigits, Digit.ofChar?_char, ih]

theorem readWhole?_append {rest : List Char} (h : ∀ c ∈ rest.head?, Digit.ofChar? c = none)
    (n : Nat) :
    readWhole? ((Decimal.digits n).map Digit.char ++ rest) = some (n, rest) := by
  have hv := Decimal.value_digits n
  obtain ⟨d, ds, he, hz⟩ := Decimal.digits_eq_cons n
  rw [readWhole?, takeDigits_append h, he]
  rw [he] at hv
  cases ds with
  | nil =>
    have : d.val = n := by simpa [Decimal.value] using hv
    simp [this]
  | cons e es => simp [hz, hv]

/-- The fraction as it is written. -/
def fractionText (fraction : List Digit) : List Char :=
  if fraction = [] then [] else '.' :: fraction.map Digit.char

theorem readFraction?_append {rest : List Char}
    (h : ∀ c ∈ rest.head?, Digit.ofChar? c = none ∧ c ≠ '.') (fraction : List Digit) :
    readFraction? (fractionText fraction ++ rest) = some (fraction, rest) := by
  cases fraction with
  | nil =>
    rw [fractionText, if_pos rfl, List.nil_append]
    cases rest with
    | nil => rfl
    | cons c rest =>
      unfold readFraction?
      split
      · next heq => exact absurd (List.cons.inj heq).1 (h c (by simp)).2
      · rfl
  | cons d ds =>
    rw [fractionText, if_neg (by simp), List.cons_append, readFraction?,
      takeDigits_append fun c hc => (h c hc).1]

/-- The exponent as it is written. -/
def exponentText : Option Int → List Char
  | none => []
  | some e => 'e' :: (if e < 0 then '-' else '+') :: (Decimal.digits e.natAbs).map Digit.char

theorem readExponent?_append {rest : List Char} (h : Ends rest) (exponent : Option Int) :
    readExponent? (exponentText exponent ++ rest) = some (exponent, rest) := by
  cases exponent with
  | none =>
    rw [exponentText, List.nil_append]
    cases rest with
    | nil => rfl
    | cons c rest =>
      obtain ⟨-, -, he, hE⟩ := h c (by simp)
      rw [readExponent?, if_neg (by simp [he, hE])]
  | some e =>
    have hsign : ∀ cs, takeSign ((if e < 0 then '-' else '+') :: cs) = (decide (e < 0), cs) := by
      intro cs
      by_cases he : e < 0 <;> simp [he, takeSign]
    have hv := Decimal.value_digits e.natAbs
    have htake := takeDigits_append (fun c hc => (h c hc).1) (Decimal.digits e.natAbs)
    obtain ⟨d, ds, hd, -⟩ := Decimal.digits_eq_cons e.natAbs
    rw [hd] at hv htake
    rw [exponentText, List.cons_append, List.cons_append, readExponent?, if_pos (.inl rfl), hsign,
      hd]
    simp only [htake, hv, decide_eq_true_eq, Option.some.injEq, Prod.mk.injEq, and_true]
    omega

theorem text_eq (n : Numeral) :
    n.text = (if n.negative then ['-'] else []) ++ ((Decimal.digits n.whole).map Digit.char ++
      (fractionText n.fraction ++ exponentText n.exponent)) := by
  simp only [text, List.append_assoc]
  rfl

theorem head?_exponentText_append {rest : List Char} (h : Ends rest) (exponent : Option Int) :
    ∀ c ∈ (exponentText exponent ++ rest).head?, Digit.ofChar? c = none ∧ c ≠ '.' := by
  intro c hc
  cases exponent with
  | none => exact ⟨(h c hc).1, (h c hc).2.1⟩
  | some e =>
    obtain rfl : 'e' = c := by simpa [exponentText] using hc
    decide

theorem head?_fractionText_append {rest : List Char}
    (h : ∀ c ∈ rest.head?, Digit.ofChar? c = none) (fraction : List Digit) :
    ∀ c ∈ (fractionText fraction ++ rest).head?, Digit.ofChar? c = none := by
  intro c hc
  cases fraction with
  | nil => exact h c hc
  | cons d ds =>
    obtain rfl : '.' = c := by simpa [fractionText] using hc
    decide

/-- A number reads back as it is written. -/
theorem read?_text_append (n : Numeral) {rest : List Char} (h : Ends rest) :
    read? (n.text ++ rest) = some (n, rest) := by
  have hexponent := readExponent?_append h n.exponent
  have hfraction := readFraction?_append (head?_exponentText_append h n.exponent) n.fraction
  have hwhole := readWhole?_append
    (head?_fractionText_append (fun c hc => (head?_exponentText_append h n.exponent c hc).1)
      n.fraction) n.whole
  obtain ⟨d, ds, hd, -⟩ := Decimal.digits_eq_cons n.whole
  have hminus : d.char ≠ '-' := Digit.notDigit_of_char (by decide)
  obtain ⟨negative, whole, fraction, exponent⟩ := n
  cases negative with
  | true =>
    simp only [text_eq, if_true, List.append_assoc, List.cons_append, List.nil_append, read?,
      hwhole, hfraction, hexponent, Option.bind_eq_bind, Option.bind_some]
    rfl
  | false =>
    simp only [text_eq, Bool.false_eq_true, if_false, List.append_assoc, List.nil_append]
    unfold read?
    split
    next heq =>
      split at heq
      · next hhead =>
        rw [hd, List.map_cons, List.cons_append] at hhead
        exact absurd (List.cons.inj hhead).1 hminus
      · cases heq
        simp only [hwhole, hfraction, hexponent, Option.bind_eq_bind, Option.bind_some]
        rfl

end Numeral

namespace Json

/-! ### Strings -/

/-- The piece cannot be read as anything else. -/
def Piece.IsProper : Piece → Prop
  | plain c => c ≠ '"' ∧ c ≠ '\\' ∧ 0x20 ≤ c.toNat
  | escape c => (escapeLetter? c).isSome = true
  | unit _ => True

namespace Written

def IsProper (w : Written) : Prop := ∀ p ∈ w, p.IsProper

theorem mem_of_isSome_escapeLetter? {c : Char} (h : (escapeLetter? c).isSome = true) :
    c ∈ ['"', '\\', '/', '\x08', '\x0c', '\n', '\r', '\t'] := by
  refine Decidable.byContradiction fun hc => ?_
  simp only [List.mem_cons, List.not_mem_nil, or_false, not_or] at hc
  simp [escapeLetter?, hc] at h

/-- The letter of a short escape leads back to its character. -/
theorem escaped?_escapeLetter? {c : Char} (h : (escapeLetter? c).isSome = true) :
    escaped? ((escapeLetter? c).getD c) = some c ∧ (escapeLetter? c).getD c ≠ 'u' := by
  have hmem := mem_of_isSome_escapeLetter? h
  simp only [List.mem_cons, List.not_mem_nil, or_false] at hmem
  rcases hmem with rfl | rfl | rfl | rfl | rfl | rfl | rfl | rfl <;> decide

theorem isProper_encodeChar (c : Char) : (encodeChar c).IsProper := by
  unfold encodeChar
  split
  · next h =>
    show (escapeLetter? c).isSome = true
    rcases h with rfl | rfl | rfl | rfl | rfl | rfl | rfl <;> decide
  · next h =>
    split
    · trivial
    · next h' =>
      simp only [not_or] at h
      exact ⟨h.1, h.2.1, by omega⟩

theorem isProper_encode (s : String) : (encode s).IsProper := by
  intro p hp
  obtain ⟨c, -, rfl⟩ := List.mem_map.1 hp
  exact isProper_encodeChar c

theorem hexUnit_padded (n : Fin 65536) : ∃ a b c d : Fin 16,
    Text.Hex.padded 4 n.val = [a, b, c, d] ∧ hexUnit a b c d = n := by
  refine ⟨_, _, _, _, rfl, Fin.ext ?_⟩
  have := n.isLt
  simp only [hexUnit, Text.Hex.digit, Fin.val_ofNat]
  omega

theorem read?_piece_append {p : Piece} (h : p.IsProper) (cs : List Char) :
    read? (p.text ++ cs) = (read? cs).map fun q => (p :: q.1, q.2) := by
  cases p with
  | plain c =>
    obtain ⟨hq, hb, hc⟩ := h
    rw [Piece.text, List.singleton_append, read?.eq_def]
    simp only [hq, hb, Nat.not_lt.2 hc, if_false]
    cases read? cs <;> rfl
  | escape c =>
    obtain ⟨he, hu⟩ := escaped?_escapeLetter? h
    rw [Piece.text, List.cons_append, List.singleton_append, read?, he]
    · cases read? cs <;> rfl
    · exact fun _ _ _ _ _ hl => absurd hl hu
  | unit n =>
    obtain ⟨a, b, c, d, hp, hn⟩ := hexUnit_padded n
    rw [Piece.text, hp]
    simp only [List.map_cons, List.map_nil, List.cons_append, List.nil_append, read?,
      Text.Hex.value?_char, Option.bind_eq_bind, Option.bind_some, hn]
    cases read? cs <;> rfl

theorem read?_text_append {w : Written} (h : w.IsProper) (rest : List Char) :
    read? (w.text ++ '"' :: rest) = some (w, rest) := by
  induction w with
  | nil => rw [text, List.flatMap_nil, List.nil_append, read?.eq_def]; rfl
  | cons p w ih =>
    rw [text, List.flatMap_cons, List.append_assoc, read?_piece_append (h p (by simp))]
    rw [text] at ih
    rw [ih fun q hq => h q (by simp [hq])]
    rfl

end Written

/-! ### Tokens -/

namespace Token

/-- The token as it is written. -/
def chars : Token → List Char
  | openArray => ['[']
  | closeArray => [']']
  | openObject => ['{']
  | closeObject => ['}']
  | comma => [',']
  | colon => [':']
  | null => ['n', 'u', 'l', 'l']
  | bool true => ['t', 'r', 'u', 'e']
  | bool false => ['f', 'a', 'l', 's', 'e']
  | number n => n.text
  | text w => quoted w

def IsProper : Token → Prop
  | text w => w.IsProper
  | _ => True

/-- The token ends where `rest` begins. -/
def Ends (rest : List Char) : Token → Prop
  | number _ => Numeral.Ends rest
  | _ => True

theorem read?_of_number {c : Char} (h : c = '-' ∨ ∃ d : Digit, c = d.char) (cs : List Char) :
    read? (c :: cs) = (Numeral.read? (c :: cs)).map fun p => (number p.1, p.2) := by
  have hc : c ≠ 't' ∧ c ≠ 'f' ∧ c ≠ 'n' ∧ c ≠ '"' ∧ ofMark? c = none := by
    rcases h with rfl | ⟨d, rfl⟩
    · decide
    · revert d; decide
  obtain ⟨ht, hf, hn, hq, hm⟩ := hc
  unfold read?
  split
  · next heq => cases heq
  · next heq => exact absurd (List.cons.inj heq).1 ht
  · next heq => exact absurd (List.cons.inj heq).1 hf
  · next heq => exact absurd (List.cons.inj heq).1 hn
  · next heq => exact absurd (List.cons.inj heq).1 hq
  · next heq => cases heq; rw [hm]

theorem exists_text_eq_cons (n : Numeral) :
    ∃ c cs, n.text = c :: cs ∧ (c = '-' ∨ ∃ d : Digit, c = d.char) := by
  obtain ⟨d, ds, hd, -⟩ := Decimal.digits_eq_cons n.whole
  rw [Numeral.text_eq, hd]
  cases n.negative with
  | true => exact ⟨'-', _, rfl, .inl rfl⟩
  | false => exact ⟨d.char, _, rfl, .inr ⟨d, rfl⟩⟩

/-- A token reads back as it is written. -/
theorem read?_chars_append {t : Token} (hp : t.IsProper) {rest : List Char} (he : t.Ends rest) :
    read? (t.chars ++ rest) = some (t, rest) := by
  cases t with
  | number n =>
    have hread : Numeral.read? (n.text ++ rest) = some (n, rest) := Numeral.read?_text_append n he
    obtain ⟨c, cs, hn, hc⟩ := exists_text_eq_cons n
    rw [chars, hn, List.cons_append, read?_of_number hc, ← List.cons_append, ← hn, hread]
    rfl
  | text w =>
    have hread : Written.read? (w.text ++ '"' :: rest) = some (w, rest) :=
      Written.read?_text_append hp rest
    rw [chars, quoted, List.cons_append, List.cons_append, List.append_assoc, List.singleton_append,
      read?, hread]
    rfl
  | bool b => cases b <;> rfl
  | _ => rfl

/-- No token starts with a space, and none but a comma with a comma. -/
theorem exists_chars_eq_cons (t : Token) :
    ∃ c cs, t.chars = c :: cs ∧ isSpace c = false ∧ (c = ',' → t = comma) := by
  cases t with
  | number n =>
    obtain ⟨c, cs, hn, hc⟩ := exists_text_eq_cons n
    have hdigit : ∀ d : Digit, isSpace d.char = false ∧ d.char ≠ ',' := by decide
    have hc : isSpace c = false ∧ c ≠ ',' := by
      rcases hc with rfl | ⟨d, rfl⟩
      · decide
      · exact hdigit d
    exact ⟨c, cs, hn, hc.1, fun he => absurd he hc.2⟩
  | text w => exact ⟨'"', w.text ++ ['"'], rfl, by decide, fun h => absurd h (by decide)⟩
  | bool b => cases b <;> exact ⟨_, _, rfl, by decide, by decide⟩
  | _ => exact ⟨_, _, rfl, by decide, by decide⟩

end Token

end Json

end Countersign
