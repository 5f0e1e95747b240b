import Countersign.Text.Hex
import Countersign.Text.Hidden

/-! Texts as they are shown inside messages: in quotes, on one line, with every hidden character
spelled out. -/

namespace Countersign.Text

/-- The hexadecimal digits of `n` without leading zeros. -/
def hexDigits (n : Nat) : List (Fin 16) :=
  if n < 16 then [Hex.digit n] else hexDigits (n / 16) ++ [Hex.digit n]

def shownChar (c : Char) : List Char :=
  match c with
  | '\x00' => ['\\', '0']
  | '\t' => ['\\', 't']
  | '\n' => ['\\', 'n']
  | '\r' => ['\\', 'r']
  | '"' => ['\\', '"']
  | '\\' => ['\\', '\\']
  | c =>
    if isHidden c then
      ['\\', 'u', '{'] ++ (hexDigits c.toNat).map Hex.char ++ ['}']
    else [c]

def shown (s : String) : String :=
  String.ofList ('"' :: s.toList.flatMap shownChar ++ ['"'])

example : shown "it's\na\"q\"" = "\"it's\\na\\\"q\\\"\"" := by decide +kernel

end Countersign.Text
