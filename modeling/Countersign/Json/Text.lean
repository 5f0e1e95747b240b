import Countersign.Text.Hex

/-! The strings of JSON text. A written string is a list of pieces, each a character that stands for
itself, a short escape or a UTF-16 unit; not every written string stands for a text, because units
may be lone halves of surrogate pairs. Main statement: `decode_encode`. -/

namespace Countersign.Json

/-- A piece of a written string. -/
inductive Piece where
  /-- A character that stands for itself. -/
  | plain (c : Char)
  /-- A backslash and a letter, for the character `c`. -/
  | escape (c : Char)
  /-- A backslash, the letter u and four hexadecimal digits. -/
  | unit (n : Fin 65536)
deriving DecidableEq

/-- A string as it is written between its quotes. -/
abbrev Written := List Piece

/-- The letter of the short escape for a character, if there is one. -/
def escapeLetter? (c : Char) : Option Char :=
  if c = '"' then some '"'
  else if c = '\\' then some '\\'
  else if c = '/' then some '/'
  else if c = '\x08' then some 'b'
  else if c = '\x0c' then some 'f'
  else if c = '\n' then some 'n'
  else if c = '\r' then some 'r'
  else if c = '\t' then some 't'
  else none

/-- The character that a short escape stands for. -/
def escaped? (letter : Char) : Option Char :=
  ['"', '\\', '/', '\x08', '\x0c', '\n', '\r', '\t'].find? fun c => escapeLetter? c = some letter

def hexUnit (a b c d : Fin 16) : Fin 65536 :=
  ⟨4096 * a.val + 256 * b.val + 16 * c.val + d.val, by omega⟩

namespace Piece

def text : Piece → List Char
  | plain c => [c]
  | escape c => ['\\', (escapeLetter? c).getD c]
  | unit n => '\\' :: 'u' :: (Text.Hex.padded 4 n.val).map Text.Hex.char

end Piece

namespace Written

def text (w : Written) : List Char := w.flatMap Piece.text

/-- Reads pieces up to the closing quote and gives what follows it. A control character has to be
escaped. -/
def read? : List Char → Option (Written × List Char)
  | [] => none
  | c :: cs =>
    if c = '"' then some ([], cs)
    else if c = '\\' then
      match cs with
      | 'u' :: h1 :: h2 :: h3 :: h4 :: cs => do
        let a ← Text.Hex.value? h1
        let b ← Text.Hex.value? h2
        let c ← Text.Hex.value? h3
        let d ← Text.Hex.value? h4
        let (w, rest) ← read? cs
        return (.unit (hexUnit a b c d) :: w, rest)
      | letter :: cs => do
        let c ← escaped? letter
        let (w, rest) ← read? cs
        return (.escape c :: w, rest)
      | [] => none
    else if c.toNat < 0x20 then none
    else do
      let (w, rest) ← read? cs
      return (.plain c :: w, rest)

/-- The pieces of a text: quotes, backslashes and control characters are escaped and nothing
else. -/
def encodeChar (c : Char) : Piece :=
  if c = '"' ∨ c = '\\' ∨ c = '\x08' ∨ c = '\x0c' ∨ c = '\n' ∨ c = '\r' ∨ c = '\t' then .escape c
  else if h : c.toNat < 0x20 then .unit ⟨c.toNat, by omega⟩
  else .plain c

def encode (s : String) : Written := s.toList.map encodeChar

def isHighSurrogate (n : Fin 65536) : Bool := 0xD800 ≤ n.val && n.val < 0xDC00

def isLowSurrogate (n : Fin 65536) : Bool := 0xDC00 ≤ n.val && n.val < 0xE000

/-- The characters that a written string stands for, if no half of a surrogate pair stands alone. -/
def chars? : Written → Option (List Char)
  | [] => some []
  | .plain c :: w => (chars? w).map (c :: ·)
  | .escape c :: w => (chars? w).map (c :: ·)
  | .unit n :: w =>
    if isHighSurrogate n then
      match w with
      | .unit m :: w =>
        if isLowSurrogate m then
          (chars? w).map
            (Char.ofNat (0x10000 + (n.val - 0xD800) * 0x400 + (m.val - 0xDC00)) :: ·)
        else none
      | _ => none
    else if isLowSurrogate n then none
    else (chars? w).map (Char.ofNat n.val :: ·)

def decode (w : Written) : Option String := (chars? w).map String.ofList

/-- The characters of a written string without any escape. -/
def plain? : Written → Option (List Char)
  | [] => some []
  | .plain c :: w => do return c :: (← plain? w)
  | _ => none

theorem chars?_unit {n : Fin 65536} (h : n.val < 0xD800) (w : Written) :
    chars? (.unit n :: w) = (chars? w).map (Char.ofNat n.val :: ·) := by
  have h1 : isHighSurrogate n = false := by simp [isHighSurrogate]; omega
  have h2 : isLowSurrogate n = false := by simp [isLowSurrogate]; omega
  rw [chars?.eq_def]
  simp only [h1, h2, Bool.false_eq_true, ↓reduceIte]

theorem chars?_encodeChar (c : Char) (w : Written) :
    chars? (encodeChar c :: w) = (chars? w).map (c :: ·) := by
  unfold encodeChar
  split
  · rw [chars?]
  · split
    · next h => rw [chars?_unit (by simp; omega), Char.ofNat_toNat]
    · rw [chars?]

/-- Every text is what its written form stands for. -/
theorem decode_encode (s : String) : decode (encode s) = some s := by
  have h : ∀ cs : List Char, chars? (cs.map encodeChar) = some cs := by
    intro cs
    induction cs with
    | nil => rfl
    | cons c cs ih => rw [List.map_cons, chars?_encodeChar, ih]; rfl
  rw [decode, encode, h]
  simp

theorem length_read? {cs rest : List Char} {w : Written} (h : read? cs = some (w, rest)) :
    rest.length < cs.length := by
  fun_induction read? cs generalizing w rest with
  | case1 => cases h
  | case2 => cases h; simp
  | case3 => 
    rename_i ih
    simp only [Option.bind_eq_bind, Option.bind_eq_some_iff, Prod.exists, pure,
      Option.some.injEq, Prod.mk.injEq] at h
    obtain ⟨_, _, _, _, _, _, _, _, w', r', h', -, rfl⟩ := h
    have := ih h'
    simp; omega
  | case4 => 
    rename_i ih
    simp only [Option.bind_eq_bind, Option.bind_eq_some_iff, Prod.exists, pure,
      Option.some.injEq, Prod.mk.injEq] at h
    obtain ⟨_, _, w', r', h', -, rfl⟩ := h
    have := ih h'
    simp; omega
  | case5 => cases h
  | case6 => cases h
  | case7 =>
    rename_i ih
    simp only [Option.bind_eq_bind, Option.bind_eq_some_iff, Prod.exists, pure,
      Option.some.injEq, Prod.mk.injEq] at h
    obtain ⟨w', r', h', -, rfl⟩ := h
    have := ih h'
    simp; omega

end Written

end Countersign.Json
