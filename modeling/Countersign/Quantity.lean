import Countersign.Decimal
import Countersign.Text.Blank
import Countersign.Text.Hex
import Countersign.Wei

/-! Amounts as they arrive in text: hexadecimal after 0x, else decimal. A text that is no amount
never stops anything; where an amount has to be had it counts as zero. -/

namespace Countersign.Quantity

/-- The number with the given digits. Underscores between them are passed over. -/
def number? (radix : Nat) (digit? : Char → Option Nat) (cs : List Char) : Option Nat :=
  cs.foldlM (fun n c => if c = '_' then some n else (digit? c).map (radix * n + ·)) 0

def decimal? (cs : List Char) : Option Nat := number? 10 (fun c => (Digit.ofChar? c).map (·.val)) cs

def hexadecimal? (cs : List Char) : Option Nat :=
  number? 16 (fun c => (Text.Hex.value? c).map (·.val)) cs

/-- The number that a text without blanks around it stands for. -/
def value? : List Char → Option Nat
  | [] => none
  | '0' :: 'x' :: cs => hexadecimal? cs
  | '0' :: 'X' :: cs => hexadecimal? cs
  | cs => decimal? cs

/-- The amount in a text, if it is one and below 2^256. -/
def read? (s : String) : Option Wei := (value? (Text.trim s.toList)).bind Wei.ofNat?

def readOrZero (s : Option String) : Wei := (s.bind read?).getD Wei.zero

/-- The amount in a text, if it fits a word. -/
def readWord? (s : String) : Option UInt64 := (read? s).bind Wei.word?

example : readWord? " 0xf_4240\n" = some 1000000 := by decide +kernel
example : readWord? "_" = some 0 := by decide +kernel
example : read? "1.5" = none := by decide +kernel

end Countersign.Quantity
