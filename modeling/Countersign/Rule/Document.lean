import Countersign.Binary64.Shortest
import Countersign.Json.Field
import Countersign.Json.Printer
import Countersign.Json.Reader
import Countersign.Rule.Catalog
import Countersign.Source
import Countersign.Storage.FileTree

/-! Rule catalogs as JSON documents. A catalog is written with every field that it has, apart from
a fact key that is the rule's own id, and reads back as the same catalog. -/

namespace Countersign

inductive CatalogError where
  | read (path : String) (fault : FileFault)
  | parse
  | invalid (e : RuleError)
deriving DecidableEq

def CatalogError.message : CatalogError → String
  | read path _ => s!"failed to read rule catalog {path}: {hostCause}"
  | parse => s!"failed to parse rule catalog: {hostCause}"
  | invalid e => s!"invalid rule: {e.message}"

/-! ### Writing -/

/-- Numbers in documents have the shortest digits and always a point or an exponent, which they have
below 10^-5 and from 10^16 on. -/
def documentLayout : Binary64.Layout := ⟨.even, fun e => -5 ≤ e && e < 16, true⟩

/-- A bound of a range; none and one that is not finite are written as null. -/
def boundJson : Option Binary64 → Json
  | none => .null
  | some x => if x.isFinite then .number (documentLayout.numeral x) else .null

def integerJson : Option Int64 → Json
  | none => .null
  | some i => Json.ofInt i.toInt

def namesJson (names : NameSet) : Json := .array (names.keys.map Json.ofString)

def ValueKind.json (kind : ValueKind) : Json :=
  Json.ofFields (("type", Json.ofString kind.text) ::
    match kind with
    | .boolean => []
    | .int min max => [("min", integerJson min), ("max", integerJson max)]
    | .float min max | .percent min max => [("min", boundJson min), ("max", boundJson max)]
    | .choice members => [("members", namesJson members)])

def Interval.json (r : Interval) : Json :=
  Json.ofFields [("min", boundJson r.min), ("max", boundJson r.max),
    ("min_included", .bool r.minIncluded), ("max_included", .bool r.maxIncluded)]

def Threshold.json (t : Threshold) : Json :=
  Json.ofFields [(t.shape, match t with
    | .range r => r.json
    | .flag b => .bool b
    | .members names => namesJson names)]

/-- A table without what it may have for outcomes that could not be evaluated. -/
def ThresholdTable.json (t : ThresholdTable) : Json :=
  Json.ofFields ((t.rows.filter fun r => r.1 ≠ .unknown).map fun r => (r.1.text, r.2.json))

def Rule.json (r : Rule) : Json :=
  Json.ofFields (
    [("id", Json.ofString r.id)] ++
    (if r.factKey = r.id then [] else [("fact_key", Json.ofString r.factKey)]) ++
    [("enabled", .bool r.enabled),
      ("value_kind", r.kind.json),
      ("default_thresholds", ThresholdTable.json r.defaults),
      ("custom_thresholds", ThresholdTable.json r.custom)])

namespace RuleCatalog

def json (c : RuleCatalog) : Json := Json.ofFields [("rules", .array (c.rules.map Rule.json))]

def text (c : RuleCatalog) : String := String.ofList (c.json.pretty 0)

end RuleCatalog

/-! ### Reading -/

/-- How deep the value of a kind may be nested: it is three levels down in a document, and a
document may have 127. -/
def ValueKind.maxDepth : Nat := 124

/-- The kind with the given tag, from its other fields. Those that it does not use may be anything
in an object; an array may have none. -/
def ValueKind.ofFields? (tag : String) (rest : Json) : Option ValueKind :=
  let bound := Json.default? none (Json.optional? Json.binary64?)
  match tag with
  | "boolean" =>
    match rest with
    | .array (_ :: _) => none
    | _ => some .boolean
  | "int" => do
    match ← rest.slots? ["min", "max"] with
    | [min, max] =>
      let bound := Json.default? none (Json.optional? Json.int64?)
      return .int (← bound min) (← bound max)
    | _ => none
  | "float" => do
    match ← rest.slots? ["min", "max"] with
    | [min, max] => return .float (← bound min) (← bound max)
    | _ => none
  | "percent" => do
    match ← rest.slots? ["min", "max"] with
    | [min, max] => return .percent (← bound min) (← bound max)
    | _ => none
  | "enum" => do
    match ← rest.slots? ["members"] with
    | [members] =>
      let names ← Json.required? (Json.list? Json.string?) members
      return .choice (NameSet.ofNames names)
    | _ => none
  | _ => none

/-- A kind is written as an object with a tag, or as an array that starts with it. It is read as a
whole before the tag is looked at, so everything in it has to be readable. -/
def ValueKind.ofJson? (j : Json) : Option ValueKind :=
  if j.depth ≤ maxDepth && j.isReadable then
    match j with
    | .array (tag :: rest) => do ofFields? (← tag.string?) (.array rest)
    | .object members => do
      let named ← j.members?
      let tag ← Json.required? Json.string? (← Json.only? "type" named)
      ofFields? tag (.object (members.filter fun m => m.1.decode ≠ some "type"))
    | _ => none
  else none

def Interval.ofJson? (j : Json) : Option Interval := do
  match ← j.slots? ["min", "max", "min_included", "max_included"] with
  | [min, max, minIncluded, maxIncluded] =>
    let bound := Json.default? none (Json.optional? Json.binary64?)
    return {
      min := ← bound min
      max := ← bound max
      minIncluded := ← Json.default? true Json.bool? minIncluded
      maxIncluded := ← Json.default? false Json.bool? maxIncluded }
  | _ => none

/-- A threshold is an object with one member, which is named for the shape. -/
def Threshold.ofJson? (j : Json) : Option Threshold := do
  match ← j.members? with
  | [("range", j)] => return .range (← Interval.ofJson? j)
  | [("flag", j)] => return .flag (← j.bool?)
  | [("members", j)] => return .members (NameSet.ofNames (← j.list? Json.string?))
  | _ => none

/-- The severity of a threshold in a table. -/
def thresholdSeverity? (name : String) : Option Severity :=
  (Severity.read? name).filter (· ≠ .unknown)

def ThresholdTable.ofJson? (j : Json) : Option ThresholdTable := do
  let rows ← (← j.members?).mapM fun m => do
    return (← thresholdSeverity? m.1, ← Threshold.ofJson? m.2)
  return Table.ofList rows

/-- The rule that a document describes, or what is wrong with it. -/
def Rule.ofJson? (j : Json) : Option (Except RuleError Rule) := do
  match ← j.slots? ["id", "fact_key", "enabled", "value_kind", "default_thresholds",
      "custom_thresholds"] with
  | [id, factKey, enabled, kind, defaults, custom] =>
    return Rule.make
      (← Json.required? Json.string? id)
      (← Json.default? none (Json.optional? Json.string?) factKey)
      (← Json.default? true Json.bool? enabled)
      (← Json.required? ValueKind.ofJson? kind)
      (← Json.default? .empty ThresholdTable.ofJson? defaults)
      (← Json.default? .empty ThresholdTable.ofJson? custom)
  | _ => none

namespace RuleCatalog

/-- The catalog that a document describes, or what is wrong with the first faulty rule. -/
def ofJson? (j : Json) : Option (Except RuleError RuleCatalog) := do
  match ← j.slots? ["rules"] with
  | [rules] =>
    let rules ← Json.required? (Json.list? Rule.ofJson?) rules
    return (rules.mapM id).bind ofRules
  | _ => none

def ofText (text : String) : Except CatalogError RuleCatalog :=
  match (Json.read? text.toList).bind ofJson? with
  | some result => result.mapError .invalid
  | none => .error .parse

def load (t : FileTree) (path : String) : Except CatalogError RuleCatalog := do
  let text ← (t.readText path).mapError (.read path)
  ofText text

/-- A catalog file as a source of rules, which is read whenever it is asked. -/
def source (t : FileTree) (path : String) : Answer RuleCatalog :=
  (load t path).mapError fun e =>
    match e with
    | .read .. => .unavailable "rule_catalog" e.message
    | _ => .malformed "rule_catalog" e.message

end RuleCatalog

end Countersign
