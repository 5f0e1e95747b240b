import Countersign.Decimal
import Countersign.Json.Text

/-! JSON documents as they are written: numbers keep their digits, strings their escapes, and
objects their members in order, repeated names included. What a document means is for its reader to
say. -/

namespace Countersign

inductive Json where
  | null
  | bool (b : Bool)
  | number (n : Numeral)
  | text (w : Json.Written)
  | array (items : List Json)
  | object (members : List (Json.Written × Json))

namespace Json

instance : Inhabited Json := ⟨null⟩

def ofString (s : String) : Json := .text (Written.encode s)

def ofNat (n : Nat) : Json := .number (Numeral.ofNat n)

def ofInt (i : Int) : Json := .number (Numeral.ofInt i)

/-- An object whose member names are given as texts. -/
def ofFields (fields : List (String × Json)) : Json :=
  .object (fields.map fun f => (Written.encode f.1, f.2))

mutual

/-- How many arrays and objects are nested in one another. -/
def depth : Json → Nat
  | .array items => depthItems items + 1
  | .object members => depthMembers members + 1
  | _ => 0

def depthItems : List Json → Nat
  | [] => 0
  | j :: js => max (depth j) (depthItems js)

def depthMembers : List (Written × Json) → Nat
  | [] => 0
  | (_, j) :: ms => max (depth j) (depthMembers ms)

end

end Json

end Countersign
