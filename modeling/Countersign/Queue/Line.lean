import Countersign.Json.Field
import Countersign.Json.Printer
import Countersign.Json.Reader
import Countersign.Queue.Record

/-! Records as lines of JSON. A line leaves out what a record does not have, and reads back as the
same record. A sender that is written as an array is read up to its twentieth byte; one more item
may stand behind it if it is no byte. -/

namespace Countersign.PendingRecord

/-- The name of the sender's field. -/
def senderField : String := "from"

/-- The names of the fields, in the order in which they are written. -/
def fields : List String :=
  ["chainId", senderField, "nonce", "value", "gasUsed", "gasLimit", "gas", "gasPrice",
    "maxFeePerGas", "completed"]

/-- What is written for each of the fields. -/
def slots (r : PendingRecord) : List (Option Json) :=
  [some (Json.ofNat r.chainId.toNat), some (Json.ofString r.sender.text),
    some (Json.ofNat r.nonce.toNat), r.value.map Json.ofString,
    r.gasUsed.map fun g => Json.ofNat g.toNat, r.gasLimit.map Json.ofString,
    r.gas.map Json.ofString, r.gasPrice.map Json.ofString, r.maxFee.map Json.ofString,
    some (.bool r.completed)]

def json (r : PendingRecord) : Json :=
  Json.ofFields ((fields.zip r.slots).filterMap fun f => f.2.map fun j => (f.1, j))

/-- The line of a record, without its end. -/
def line (r : PendingRecord) : String := String.ofList r.json.compact

/-- An address is written as a text, or as the array of its bytes. -/
def sender? : Json → Option Address
  | .array items => do Address.ofBytes? (← items.mapM Json.byte?)
  | j => do Address.read? (← j.string?)

/-- The innermost array that is open stands where the sender does and has as many items as an
address has bytes. -/
def senderIsFull : List Json.Frame → Bool
  | [.array items, .member _ name] => name.decode = some senderField && items.length = Address.size
  | [.array items, .array [_]] => items.length = Address.size
  | _ => false

/-- A field that may be left out or written as null. -/
def optional? (read : Json → Option α) : Option Json → Option (Option α) :=
  Json.default? none (Json.optional? read)

def ofJson? (j : Json) : Option PendingRecord := do
  match ← j.slots? fields with
  | [chainId, sender, nonce, value, gasUsed, gasLimit, gas, gasPrice, maxFee, completed] =>
    return {
      chainId := ← Json.required? Json.word? chainId
      sender := ← Json.required? sender? sender
      nonce := ← Json.required? Json.word? nonce
      value := ← optional? Json.string? value
      gasUsed := ← optional? Json.word? gasUsed
      gasLimit := ← optional? Json.string? gasLimit
      gas := ← optional? Json.string? gas
      gasPrice := ← optional? Json.string? gasPrice
      maxFee := ← optional? Json.string? maxFee
      completed := ← Json.default? false Json.bool? completed }
  | _ => none

/-- The record that a line describes. -/
def read? (cs : List Char) : Option PendingRecord :=
  (Json.readUntilFull? senderIsFull cs).bind ofJson?

end Countersign.PendingRecord
