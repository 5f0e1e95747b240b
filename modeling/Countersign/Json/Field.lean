import Countersign.Json.Basic
import Countersign.Json.Number
import Countersign.Word

/-! What a JSON document says where a value of a certain kind is expected. A record is written as an
object with its fields by name, or as an array with its fields in order; `slots` brings both to the
same form. -/

namespace Countersign.Json

def bool? : Json → Option Bool
  | .bool b => some b
  | _ => none

def int? : Json → Option Int
  | .number n => n.int?
  | _ => none

def word? (j : Json) : Option UInt64 := do
  let i ← j.int?
  if 0 ≤ i then Word.ofNat? i.toNat else none

def byte? : Json → Option UInt8
  | .number n => n.byte?
  | _ => none

def int64? (j : Json) : Option Int64 := do
  let i ← j.int?
  if Int64.minValue.toInt ≤ i ∧ i ≤ Int64.maxValue.toInt then some (Int64.ofInt i) else none

/-- A number that is too large for any binary64 number is refused. -/
def binary64? : Json → Option Binary64
  | .number n => if n.toBinary64.isFinite then some n.toBinary64 else none
  | _ => none

def string? : Json → Option String
  | .text w => w.decode
  | _ => none

def items? : Json → Option (List Json)
  | .array items => some items
  | _ => none

def list? (read : Json → Option α) (j : Json) : Option (List α) := do
  (← j.items?).mapM read

/-- The members of an object, with the texts of their names. -/
def members? : Json → Option (List (String × Json))
  | .object members => members.mapM fun m => do return (← m.1.decode, m.2)
  | _ => none

/-- A value that may be left out by writing null. -/
def optional? (read : Json → Option α) : Json → Option (Option α)
  | .null => some none
  | j => (read j).map some

/-- A word written as the name of a member, without any escape. -/
def wordName? (w : Written) : Option UInt64 := do
  match Numeral.read? (← w.plain?) with
  | some (n, []) => word? (.number n)
  | _ => none

/-- The only value of the members with a given name; none and several are told apart. -/
def only? (name : String) (members : List (String × Json)) : Option (Option Json) :=
  match members.filter fun m => m.1 = name with
  | [] => some none
  | [m] => some (some m.2)
  | _ => none

/-- What is written for each of the fields of a record. An array may stop early and must not have
more items than there are fields; an object may have other members but no field twice. -/
def slots? (fields : List String) : Json → Option (List (Option Json))
  | .array items =>
    if items.length ≤ fields.length then
      some (items.map some ++ List.replicate (fields.length - items.length) none)
    else none
  | j => do
    let members ← j.members?
    fields.mapM fun name => only? name members

/-- A field that has to be written. -/
def required? (read : Json → Option α) (slot : Option Json) : Option α := slot.bind read

/-- A field that has a value of its own if it is not written. -/
def default? (value : α) (read : Json → Option α) : Option Json → Option α
  | none => some value
  | some j => read j

mutual

/-- Every string stands for a text and every number is in range. -/
def isReadable : Json → Bool
  | .number n => n.toBinary64.isFinite
  | .text w => w.decode.isSome
  | .array items => areReadable items
  | .object members => membersAreReadable members
  | _ => true

def areReadable : List Json → Bool
  | [] => true
  | j :: js => isReadable j && areReadable js

def membersAreReadable : List (Written × Json) → Bool
  | [] => true
  | (name, j) :: ms => name.decode.isSome && isReadable j && membersAreReadable ms

end

end Countersign.Json
