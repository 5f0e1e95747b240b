import Countersign.Quantity
import Mathlib.Data.Nat.Digits.Defs

/-! Which texts are amounts, and of how much. Main statement: `read?_iff_denotes`. -/

namespace Countersign.Quantity

/-! ### Digits -/

/-- `c` is the digit `d` of the radix, in either case. -/
def IsDigit (radix : Nat) (c : Char) (d : Nat) : Prop := d < radix ∧ c.toLower = Nat.digitChar d

/-- A text of digits and underscores, with its digits. -/
inductive Spells (radix : Nat) : List Char → List Nat → Prop
  | nil : Spells radix [] []
  | underscore {cs : List Char} {ds : List Nat} (h : Spells radix cs ds) :
      Spells radix ('_' :: cs) ds
  | digit {c : Char} {d : Nat} {cs : List Char} {ds : List Nat} (hdigit : IsDigit radix c d)
      (h : Spells radix cs ds) : Spells radix (c :: cs) (d :: ds)

/-- A text without blanks around it, with the number it stands for: digits after 0x to the radix
sixteen, or else at least one digit or underscore to the radix ten. -/
inductive Denotes : List Char → Nat → Prop
  | hexadecimal {x : Char} {cs : List Char} {ds : List Nat} (hx : x = 'x' ∨ x = 'X')
      (h : Spells 16 cs ds) : Denotes ('0' :: x :: cs) (Nat.ofDigits 16 ds.reverse)
  | decimal {cs : List Char} {ds : List Nat} (hne : cs ≠ []) (h : Spells 10 cs ds) :
      Denotes cs (Nat.ofDigits 10 ds.reverse)

theorem toNat_toLower (c : Char) :
    c.toLower.toNat = if 65 ≤ c.toNat ∧ c.toNat ≤ 90 then c.toNat + 32 else c.toNat := by
  have hupper : c.val ≥ 'A'.val ∧ c.val ≤ 'Z'.val ↔ 65 ≤ c.toNat ∧ c.toNat ≤ 90 := by
    rw [ge_iff_le, UInt32.le_iff_toNat_le, UInt32.le_iff_toNat_le]
    exact Iff.rfl
  unfold Char.toLower
  split
  · next h =>
    have hle : c.toNat ≤ 90 := (hupper.1 h).2
    rw [if_pos (hupper.1 h)]
    exact (UInt32.toNat_add c.val 32).trans
      (Nat.mod_eq_of_lt (show c.toNat + 32 < 2 ^ 32 by omega))
  · next h => rw [if_neg (mt hupper.2 h)]

theorem toNat_digitChar {d : Nat} (h : d < 16) :
    (Nat.digitChar d).toNat = if d < 10 then 48 + d else 87 + d := by
  revert d; decide

theorem isDigit_iff {radix : Nat} (hradix : radix ≤ 16) {c : Char} {d : Nat} :
    IsDigit radix c d ↔ d < radix ∧
      (d < 10 ∧ c.toNat = 48 + d ∨ 10 ≤ d ∧ (c.toNat = 87 + d ∨ c.toNat = 55 + d)) := by
  refine and_congr_right fun hd => ?_
  rw [← Char.toNat_inj, toNat_toLower, toNat_digitChar (by omega)]
  split <;> split <;> omega

theorem decimalDigit?_eq_some_iff {c : Char} {d : Nat} :
    (Digit.ofChar? c).map (·.val) = some d ↔ IsDigit 10 c d := by
  rw [isDigit_iff (by decide), Digit.ofChar?]
  split
  · simp only [Option.map_some, Option.some.injEq]; omega
  · simp only [Option.map_none, reduceCtorEq, false_iff]; omega

theorem hexadecimalDigit?_eq_some_iff {c : Char} {d : Nat} :
    (Text.Hex.value? c).map (·.val) = some d ↔ IsDigit 16 c d := by
  rw [isDigit_iff (by decide), Text.Hex.value?]
  split
  · simp only [Option.map_some, Option.some.injEq]; omega
  · split
    · simp only [Option.map_some, Option.some.injEq]; omega
    · split
      · simp only [Option.map_some, Option.some.injEq]; omega
      · simp only [Option.map_none, reduceCtorEq, false_iff]; omega

theorem not_isDigit_underscore (radix d : Nat) : ¬IsDigit radix '_' d :=
  fun h => Nat.digitChar_ne '_' (by decide) h.2.symm

theorem isBlank_of_isDigit {radix : Nat} (hradix : radix ≤ 16) {c : Char} {d : Nat}
    (h : IsDigit radix c d) : Text.isBlank c = false := by
  obtain ⟨hd, hc⟩ := (isDigit_iff hradix).1 h
  have hrange : 48 ≤ c.toNat ∧ c.toNat ≤ 102 := by omega
  simp [Text.isBlank]
  omega

/-! ### Numbers -/

section

variable {radix : Nat} {digit? : Char → Option Nat} {cs : List Char} {ds : List Nat}

theorem spells_underscore_iff : Spells radix ('_' :: cs) ds ↔ Spells radix cs ds := by
  constructor
  · intro h
    cases h with
    | underscore h => exact h
    | digit hdigit _ => exact absurd hdigit (not_isDigit_underscore radix _)
  · exact .underscore

theorem spells_cons_iff {c : Char} (hc : c ≠ '_') :
    Spells radix (c :: cs) ds ↔
      ∃ d rest, ds = d :: rest ∧ IsDigit radix c d ∧ Spells radix cs rest := by
  constructor
  · intro h
    cases h with
    | underscore => exact absurd rfl hc
    | digit hdigit h => exact ⟨_, _, rfl, hdigit, h⟩
  · rintro ⟨d, rest, rfl, hdigit, h⟩
    exact .digit hdigit h

theorem foldl_digits (ds : List Nat) :
    ds.foldl (fun n d => radix * n + d) 0 = Nat.ofDigits radix ds.reverse := by
  rw [Nat.ofDigits_eq_foldr, List.foldr_reverse]
  simp only [Nat.cast_id, Nat.add_comm]

/-- The digits are read from the left, and the number so far goes into what is read behind it. -/
theorem foldlM_eq_some_iff (hdigit : ∀ c d, digit? c = some d ↔ IsDigit radix c d)
    {start n : Nat} :
    cs.foldlM (fun n c => if c = '_' then some n else (digit? c).map (radix * n + ·)) start =
        some n ↔
      ∃ ds, Spells radix cs ds ∧ n = ds.foldl (fun n d => radix * n + d) start := by
  induction cs generalizing start with
  | nil =>
    constructor
    · rintro ⟨rfl⟩
      exact ⟨[], .nil, rfl⟩
    · rintro ⟨ds, h, rfl⟩
      cases h
      rfl
  | cons c cs ih =>
    rw [List.foldlM_cons]
    by_cases hc : c = '_'
    · subst hc
      simp only [spells_underscore_iff]
      exact ih
    · simp only [if_neg hc, spells_cons_iff hc]
      cases hd : digit? c with
      | none =>
        refine iff_of_false nofun ?_
        rintro ⟨_, ⟨d, rest, -, h, -⟩, -⟩
        rw [(hdigit c d).2 h] at hd
        cases hd
      | some d =>
        refine ih.trans ⟨?_, ?_⟩
        · rintro ⟨ds, h, rfl⟩
          exact ⟨d :: ds, ⟨d, ds, rfl, (hdigit c d).1 hd, h⟩, rfl⟩
        · rintro ⟨_, ⟨d', ds, rfl, h', h⟩, rfl⟩
          obtain rfl : d = d' := Option.some.inj (hd.symm.trans ((hdigit c d').2 h'))
          exact ⟨ds, h, rfl⟩

theorem number?_eq_some_iff (hdigit : ∀ c d, digit? c = some d ↔ IsDigit radix c d) {n : Nat} :
    number? radix digit? cs = some n ↔
      ∃ ds, Spells radix cs ds ∧ n = Nat.ofDigits radix ds.reverse := by
  simp only [← foldl_digits]
  exact foldlM_eq_some_iff hdigit

theorem decimal?_eq_some_iff {n : Nat} :
    decimal? cs = some n ↔ ∃ ds, Spells 10 cs ds ∧ n = Nat.ofDigits 10 ds.reverse :=
  number?_eq_some_iff fun _ _ => decimalDigit?_eq_some_iff

theorem hexadecimal?_eq_some_iff {n : Nat} :
    hexadecimal? cs = some n ↔ ∃ ds, Spells 16 cs ds ∧ n = Nat.ofDigits 16 ds.reverse :=
  number?_eq_some_iff fun _ _ => hexadecimalDigit?_eq_some_iff

end

theorem Spells.underscore_or_isDigit {radix : Nat} {cs : List Char} {ds : List Nat}
    (h : Spells radix cs ds) {c : Char} (hc : c ∈ cs) : c = '_' ∨ ∃ d, IsDigit radix c d := by
  induction h with
  | nil => cases hc
  | underscore _ ih =>
    rcases List.mem_cons.1 hc with rfl | hc
    · exact .inl rfl
    · exact ih hc
  | digit hdigit _ ih =>
    rcases List.mem_cons.1 hc with rfl | hc
    · exact .inr ⟨_, hdigit⟩
    · exact ih hc

theorem not_mem_of_spells {cs : List Char} {ds : List Nat} (h : Spells 10 cs ds) {x : Char}
    (hx : x = 'x' ∨ x = 'X') : x ∉ cs := by
  intro hmem
  rcases h.underscore_or_isDigit hmem with rfl | ⟨d, hdigit⟩
  · rcases hx with hx | hx <;> cases hx
  · obtain ⟨hd, hc⟩ := (isDigit_iff (by decide)).1 hdigit
    have hx' : x.toNat = 120 ∨ x.toNat = 88 := hx.imp (congrArg Char.toNat) (congrArg Char.toNat)
    omega

theorem value?_eq_some_iff {cs : List Char} {n : Nat} : value? cs = some n ↔ Denotes cs n := by
  constructor
  · intro h
    unfold value? at h
    split at h
    · cases h
    · obtain ⟨ds, hspells, rfl⟩ := hexadecimal?_eq_some_iff.1 h
      exact .hexadecimal (.inl rfl) hspells
    · obtain ⟨ds, hspells, rfl⟩ := hexadecimal?_eq_some_iff.1 h
      exact .hexadecimal (.inr rfl) hspells
    · next hne _ _ =>
      obtain ⟨ds, hspells, rfl⟩ := decimal?_eq_some_iff.1 h
      exact .decimal hne hspells
  · rintro (⟨rfl | rfl, h⟩ | ⟨hne, h⟩)
    · exact hexadecimal?_eq_some_iff.2 ⟨_, h, rfl⟩
    · exact hexadecimal?_eq_some_iff.2 ⟨_, h, rfl⟩
    · unfold value?
      split
      · exact absurd rfl hne
      · exact absurd (by simp) (not_mem_of_spells h (.inl rfl))
      · exact absurd (by simp) (not_mem_of_spells h (.inr rfl))
      · exact decimal?_eq_some_iff.2 ⟨_, h, rfl⟩

theorem Denotes.isBlank_eq_false {cs : List Char} {n : Nat} (h : Denotes cs n) {c : Char}
    (hc : c ∈ cs) : Text.isBlank c = false := by
  have hspelled : ∀ {radix : Nat} {cs : List Char} {ds : List Nat}, radix ≤ 16 →
      Spells radix cs ds → c ∈ cs → Text.isBlank c = false := by
    intro radix cs ds hradix hspells hc
    rcases hspells.underscore_or_isDigit hc with rfl | ⟨d, hdigit⟩
    · decide
    · exact isBlank_of_isDigit hradix hdigit
  rcases h with ⟨hx, hspells⟩ | ⟨-, hspells⟩
  · rcases List.mem_cons.1 hc with rfl | hc
    · decide
    · rcases List.mem_cons.1 hc with rfl | hc
      · rcases hx with rfl | rfl <;> decide
      · exact hspelled (by decide) hspells hc
  · exact hspelled (by decide) hspells hc

/-! ### Printed numbers -/

theorem Spells.append_digit {radix : Nat} {cs : List Char} {ds : List Nat} {c : Char} {d : Nat}
    (h : Spells radix cs ds) (hdigit : IsDigit radix c d) :
    Spells radix (cs ++ [c]) (ds ++ [d]) := by
  induction h with
  | nil => exact .digit hdigit .nil
  | underscore _ ih => exact .underscore ih
  | digit hfirst _ ih => exact .digit hfirst ih

/-- The digits of a number, in either case, spell the number. -/
theorem exists_spells_toDigits {radix : Nat} (hradix : 1 < radix) (n : Nat) {cs : List Char}
    (hcs : cs.map Char.toLower = Nat.toDigits radix n) :
    ∃ ds, Spells radix cs ds ∧ Nat.ofDigits radix ds.reverse = n := by
  induction n using Nat.strong_induction_on generalizing cs with
  | _ n ih =>
    rw [Nat.toDigits_eq_if hradix] at hcs
    split at hcs
    · next hlt =>
      obtain ⟨c, rfl, hc⟩ := List.map_eq_singleton_iff.1 hcs
      exact ⟨[n], .digit ⟨hlt, hc⟩ .nil, Nat.ofDigits_singleton⟩
    · next hle =>
      obtain ⟨cs', last, rfl, hcs', hlast⟩ := List.map_eq_append_iff.1 hcs
      obtain ⟨c, rfl, hc⟩ := List.map_eq_singleton_iff.1 hlast
      have hdiv : n / radix < n := Nat.div_lt_self (by omega) hradix
      obtain ⟨ds, hspells, hvalue⟩ := ih (n / radix) hdiv hcs'
      refine ⟨ds ++ [n % radix], hspells.append_digit ⟨Nat.mod_lt _ (by omega), hc⟩, ?_⟩
      rw [List.reverse_append, List.reverse_singleton, List.singleton_append, Nat.ofDigits_cons,
        hvalue, Nat.mod_add_div]

theorem map_toLower_toDigits (n : Nat) :
    (Nat.toDigits 10 n).map Char.toLower = Nat.toDigits 10 n := by
  have hkept : ∀ c ∈ Nat.toDigits 10 n, c.toLower = id c := by
    intro c hc
    have hdigit := Nat.isDigit_of_mem_toDigits (by decide) (by decide) hc
    have hle : c.toNat ≤ 57 := (Char.isDigit_iff_toNat.1 hdigit).2
    rw [id, ← Char.toNat_inj, toNat_toLower, if_neg (by omega)]
  exact (List.map_congr_left hkept).trans (List.map_id _)

/-- The text is the number in decimal digits, or in hexadecimal ones after 0x, these in either
case. -/
inductive Prints (n : Nat) : List Char → Prop
  | decimal : Prints n (Nat.toDigits 10 n)
  | hexadecimal {text : List Char} (h : text.map Char.toLower = '0' :: 'x' :: Nat.toDigits 16 n) :
      Prints n text

theorem eq_zero_of_toLower {c : Char} (h : c.toLower = '0') : c = '0' := by
  have hdigit : IsDigit 16 c 0 := ⟨by decide, h⟩
  obtain ⟨-, hc⟩ := (isDigit_iff (by decide)).1 hdigit
  exact Char.toNat_inj.1 (show c.toNat = 48 by omega)

theorem eq_x_of_toLower {c : Char} (h : c.toLower = 'x') : c = 'x' ∨ c = 'X' := by
  have hc : c.toNat = 120 ∨ c.toNat = 88 := by
    have hlower : c.toLower.toNat = 120 := congrArg Char.toNat h
    rw [toNat_toLower] at hlower
    split at hlower <;> omega
  exact hc.imp Char.toNat_inj.1 Char.toNat_inj.1

theorem Prints.denotes {n : Nat} {text : List Char} (h : Prints n text) : Denotes text n := by
  cases h with
  | decimal =>
    obtain ⟨ds, hspells, hvalue⟩ := exists_spells_toDigits (by decide) n (map_toLower_toDigits n)
    have hdenotes := Denotes.decimal Nat.toDigits_ne_nil hspells
    rwa [hvalue] at hdenotes
  | hexadecimal h =>
    obtain ⟨zero, rest, rfl, hzero, hrest⟩ := List.map_eq_cons_iff.1 h
    obtain ⟨x, digits, rfl, hx, hdigits⟩ := List.map_eq_cons_iff.1 hrest
    obtain ⟨ds, hspells, hvalue⟩ := exists_spells_toDigits (by decide) n hdigits
    have hdenotes := Denotes.hexadecimal (eq_x_of_toLower hx) hspells
    rwa [hvalue, ← eq_zero_of_toLower hzero] at hdenotes

/-! ### Amounts -/

theorem map_toNat_read? (s : String) :
    (read? s).map (·.toNat) = (value? (Text.trim s.toList)).filter (· < 2 ^ 256) := by
  rw [read?]
  cases value? (Text.trim s.toList) with
  | none => rfl
  | some n =>
    rw [Option.bind_some, Option.filter_some, Wei.ofNat?]
    split
    · next h => rw [if_pos (decide_eq_true (show n < 2 ^ 256 from h))]; rfl
    · next h => rw [if_neg (mt of_decide_eq_true (show ¬n < 2 ^ 256 from h))]; rfl

theorem map_toNat_readWord? (s : String) :
    (readWord? s).map (·.toNat) = ((read? s).map (·.toNat)).filter (· < 2 ^ 64) := by
  rw [readWord?]
  cases read? s with
  | none => rfl
  | some a =>
    rw [Option.bind_some, Option.map_some, Option.filter_some, Wei.word?, Word.ofNat?]
    split
    · next h =>
      rw [if_pos (decide_eq_true (show a.toNat < 2 ^ 64 from h)), Option.map_some,
        UInt64.toNat_ofNatLT]
    · next h => rw [if_neg (mt of_decide_eq_true (show ¬a.toNat < 2 ^ 64 from h))]; rfl

theorem read?_eq_some_iff {s : String} {n : Nat} :
    (read? s).map (·.toNat) = some n ↔
      ∃ text, Text.Trims s.toList text ∧ Denotes text n ∧ n < 2 ^ 256 := by
  simp only [map_toNat_read?, Option.filter_eq_some_iff, decide_eq_true_eq, value?_eq_some_iff,
    Text.trims_iff, exists_eq_left']

/-- An amount is read from a text exactly if the text without the blanks around it is one that the
grammar knows and the number fits. Each number that fits is read back from its digits, and a word is
read where the amount is one. -/
theorem read?_iff_denotes :
    (∀ s n, (read? s).map (·.toNat) = some n ↔
      ∃ text, Text.Trims s.toList text ∧ Denotes text n ∧ n < 2 ^ 256) ∧
    (∀ n text before after, n < 2 ^ 256 → Prints n text →
      (∀ c ∈ before, Text.isBlank c = true) → (∀ c ∈ after, Text.isBlank c = true) →
      (read? (String.ofList (before ++ text ++ after))).map (·.toNat) = some n) ∧
    ∀ s, (readWord? s).map (·.toNat) = ((read? s).map (·.toNat)).filter (· < 2 ^ 64) := by
  refine ⟨fun s n => read?_eq_some_iff, ?_, map_toNat_readWord?⟩
  intro n text before after hn hprints hbefore hafter
  have hdenotes := hprints.denotes
  refine read?_eq_some_iff.2 ⟨text, ⟨⟨before, after, ?_, hbefore, hafter⟩, ?_, ?_⟩, hdenotes, hn⟩
  · exact String.toList_ofList
  · exact fun c hc => hdenotes.isBlank_eq_false (List.mem_of_mem_head? hc)
  · exact fun c hc => hdenotes.isBlank_eq_false (List.mem_of_getLast? hc)

theorem read?_iff_denotes_upperCase :
    (read? (String.ofList [' ', '0', 'X', 'f', 'F', '\n'])).map (·.toNat) = some 255 :=
  read?_iff_denotes.2.1 255 ['0', 'X', 'f', 'F'] [' '] ['\n'] (by decide)
    (.hexadecimal (by decide)) (List.forall_mem_singleton.2 (by decide))
    (List.forall_mem_singleton.2 (by decide))

end Countersign.Quantity
