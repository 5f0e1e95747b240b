import Countersign.Json.Basic

/-! The tokens of JSON text. -/

namespace Countersign.Json

inductive Token where
  | openArray
  | closeArray
  | openObject
  | closeObject
  | comma
  | colon
  | null
  | bool (b : Bool)
  | number (n : Numeral)
  | text (w : Written)
deriving DecidableEq

/-- The four characters that may stand between tokens. -/
def isSpace (c : Char) : Bool := c = ' ' || c = '\t' || c = '\n' || c = '\r'

namespace Token

/-- The tokens of one character. -/
def ofMark? (c : Char) : Option Token :=
  if c = '[' then some openArray
  else if c = ']' then some closeArray
  else if c = '{' then some openObject
  else if c = '}' then some closeObject
  else if c = ',' then some comma
  else if c = ':' then some colon
  else none

/-- The token at the start of a text that does not start with a space, and what follows it. -/
def read? : List Char → Option (Token × List Char)
  | [] => none
  | 't' :: 'r' :: 'u' :: 'e' :: cs => some (bool true, cs)
  | 'f' :: 'a' :: 'l' :: 's' :: 'e' :: cs => some (bool false, cs)
  | 'n' :: 'u' :: 'l' :: 'l' :: cs => some (null, cs)
  | '"' :: cs => (Written.read? cs).map fun p => (text p.1, p.2)
  | c :: cs =>
    match ofMark? c with
    | some t => some (t, cs)
    | none => (Numeral.read? (c :: cs)).map fun p => (number p.1, p.2)

theorem length_read? {cs rest : List Char} {t : Token} (h : read? cs = some (t, rest)) :
    rest.length < cs.length := by
  unfold read? at h
  split at h
  · cases h
  · cases h; simp; omega
  · cases h; simp; omega
  · cases h; simp; omega
  · simp only [Option.map_eq_some_iff, Prod.mk.injEq] at h
    obtain ⟨p, hp, -, rfl⟩ := h
    have := Written.length_read? hp
    simp; omega
  · split at h
    · cases h; simp
    · simp only [Option.map_eq_some_iff, Prod.mk.injEq] at h
      obtain ⟨p, hp, -, rfl⟩ := h
      exact Numeral.length_read? hp

end Token

end Countersign.Json
