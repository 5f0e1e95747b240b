import Countersign.Json.Surplus

/-! Reading JSON text. Tokens are taken one at a time, with the arrays and objects that are still
open on a stack, so a text may be nested to any depth. A reader may want no more than a number of
items of an array; what else stands in it is then passed over. -/

namespace Countersign.Json

/-- An array or object that is still open, with its parts in reverse. -/
inductive Frame where
  | array (items : List Json)
  | object (members : List (Written × Json))
  /-- An object that waits for the value of the member `name`. -/
  | member (members : List (Written × Json)) (name : Written)

/-- What the next token may be. -/
inductive Expected where
  | value
  /-- A value, or the end of an array that has none. -/
  | firstItem
  | name
  /-- A name, or the end of an object that has none. -/
  | firstName
  | colon
  /-- What follows a value: a comma or the end of the innermost array or object. -/
  | separator

inductive State where
  | reading (expected : Expected) (stack : List Frame)
  | finished (document : Json)

namespace State

/-- Puts a complete value where it belongs. -/
def place (j : Json) : List Frame → Option State
  | [] => some (finished j)
  | .array items :: stack => some (reading .separator (.array (j :: items) :: stack))
  | .member members name :: stack =>
    some (reading .separator (.object ((name, j) :: members) :: stack))
  | .object _ :: _ => none

/-- A token where a value may start. -/
def startValue (stack : List Frame) : Token → Option State
  | .null => place .null stack
  | .bool b => place (.bool b) stack
  | .number n => place (.number n) stack
  | .text w => place (.text w) stack
  | .openArray => some (reading .firstItem (.array [] :: stack))
  | .openObject => some (reading .firstName (.object [] :: stack))
  | _ => none

def step : State → Token → Option State
  | reading .value stack, t => startValue stack t
  | reading .firstItem (.array items :: stack), .closeArray => place (.array items.reverse) stack
  | reading .firstItem stack, t => startValue stack t
  | reading .firstName (.object members :: stack), .closeObject =>
    place (.object members.reverse) stack
  | reading .firstName (.object members :: stack), .text w =>
    some (reading .colon (.member members w :: stack))
  | reading .name (.object members :: stack), .text w =>
    some (reading .colon (.member members w :: stack))
  | reading .colon stack, .colon => some (reading .value stack)
  | reading .separator (.array items :: stack), .comma =>
    some (reading .value (.array items :: stack))
  | reading .separator (.array items :: stack), .closeArray => place (.array items.reverse) stack
  | reading .separator (.object members :: stack), .comma =>
    some (reading .name (.object members :: stack))
  | reading .separator (.object members :: stack), .closeObject =>
    place (.object members.reverse) stack
  | _, _ => none

/-- An item has ended in an array that is full already. -/
def isFull (full : List Frame → Bool) : State → Bool
  | reading .separator stack => full stack
  | _ => false

def document? : State → Option Json
  | finished j => some j
  | _ => none

end State

/-- The document that a text spells from a state on. Of what is still open, `full` says whether the
innermost is an array of which no more items are wanted. -/
def readFrom (full : List Frame → Bool) (s : State) (cs : List Char) : Option Json :=
  match cs with
  | [] => s.document?
  | c :: cs =>
    if isSpace c then readFrom full s cs
    else if c = ',' && s.isFull full then
      match _h : Surplus.rest? cs with
      | none => none
      | some rest => readFrom full s rest
    else
      match _h : Token.read? (c :: cs) with
      | none => none
      | some (t, rest) =>
        match s.step t with
        | none => none
        | some s => readFrom full s rest
termination_by cs.length
decreasing_by
  · simp
  · exact Nat.lt_succ_of_le (Surplus.length_rest? _h)
  · exact Token.length_read? _h

/-- The document that a text spells, where some arrays are read only until they are full. -/
def readUntilFull? (full : List Frame → Bool) (text : List Char) : Option Json :=
  readFrom full (.reading .value []) text

/-- The document that a text spells. -/
def read? (text : List Char) : Option Json := readUntilFull? (fun _ => false) text

end Countersign.Json
