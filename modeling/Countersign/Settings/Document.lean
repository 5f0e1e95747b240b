import Countersign.Json.Field
import Countersign.Json.Reader
import Countersign.Settings.Basic

/-! Settings as JSON documents. Every field may be left out. -/

namespace Countersign.Settings

/-- The names of the fields, in the order in which an array has them. -/
def fields : List String := Parameter.all.map (·.name) ++ ["safe_ratio_chain_ids", chainRatiosName]

/-- An object with chain ids for names; of several members for one chain the last counts. -/
def byChain? (read : Json → Option α) : Json → Option (Table UInt64 α)
  | .object members => do
    let rows ← members.mapM fun m => do return (← Json.wordName? m.1, ← read m.2)
    return Table.ofList rows
  | _ => none

/-- A number that may be left out. -/
def number? (slot : Option Json) : Option (Option Binary64) :=
  Json.default? none (Json.optional? Json.binary64?) slot

def ofJson? (j : Json) : Option Settings := do
  match ← j.slots? fields with
  | [defaultRatio, minimum, fallback, cap, headroom, carefulRatio, carefulChains, chainRatios] =>
    return {
      defaultRatio := ← number? defaultRatio
      minimumGasLimit := ← number? minimum
      fallbackGasLimit := ← number? fallback
      lowBalanceCap := ← number? cap
      headroom := ← number? headroom
      carefulRatio := ← number? carefulRatio
      carefulChains :=
        ← Json.default? none (Json.optional? (Json.list? Json.word?)) carefulChains
      chainRatios := ← Json.default? .empty (byChain? Json.binary64?) chainRatios }
  | _ => none

def ofText (text : String) : Except SettingsError Settings :=
  match (Json.read? text.toList).bind ofJson? with
  | some s => .ok s
  | none => .error .parse

def load (t : FileTree) (path : String) : Except SettingsError Settings := do
  let text ← (t.readText path).mapError (.read path)
  ofText text

end Countersign.Settings
