import Countersign.Json.Basic

/-! Writing JSON text, on one line or with one member to a line. -/

namespace Countersign.Json

def quoted (w : Written) : List Char := '"' :: w.text ++ ['"']

mutual

/-- The text on one line, without spaces. -/
def compact : Json → List Char
  | .null => ['n', 'u', 'l', 'l']
  | .bool b => if b then ['t', 'r', 'u', 'e'] else ['f', 'a', 'l', 's', 'e']
  | .number n => n.text
  | .text w => quoted w
  | .array items => '[' :: compactItems items
  | .object members => '{' :: compactMembers members

/-- The items with their commas, and the bracket that closes them. -/
def compactItems : List Json → List Char
  | [] => [']']
  | [j] => compact j ++ [']']
  | j :: js => compact j ++ ',' :: compactItems js

def compactMembers : List (Written × Json) → List Char
  | [] => ['}']
  | [(name, j)] => quoted name ++ ':' :: compact j ++ ['}']
  | (name, j) :: ms => quoted name ++ ':' :: compact j ++ ',' :: compactMembers ms

end

/-- The start of a line. -/
def newline (indent : Nat) : List Char := '\n' :: List.replicate (2 * indent) ' '

mutual

/-- The text with every item and member on a line of its own, indented by two spaces for each array
or object around it. -/
def pretty (indent : Nat) : Json → List Char
  | .array [] => ['[', ']']
  | .array items => '[' :: prettyItems indent items
  | .object [] => ['{', '}']
  | .object members => '{' :: prettyMembers indent members
  | .null => compact .null
  | .bool b => compact (.bool b)
  | .number n => compact (.number n)
  | .text w => compact (.text w)

/-- The lines of the items, and the bracket that closes them. -/
def prettyItems (indent : Nat) : List Json → List Char
  | [] => newline indent ++ [']']
  | [j] => newline (indent + 1) ++ pretty (indent + 1) j ++ newline indent ++ [']']
  | j :: js => newline (indent + 1) ++ pretty (indent + 1) j ++ ',' :: prettyItems indent js

def prettyMembers (indent : Nat) : List (Written × Json) → List Char
  | [] => newline indent ++ ['}']
  | [(name, j)] =>
    newline (indent + 1) ++ quoted name ++ ':' :: ' ' :: pretty (indent + 1) j ++
      newline indent ++ ['}']
  | (name, j) :: ms =>
    newline (indent + 1) ++ quoted name ++ ':' :: ' ' :: pretty (indent + 1) j ++
      ',' :: prettyMembers indent ms

end

end Countersign.Json
