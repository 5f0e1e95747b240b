import Countersign.Rule.Threshold
import Countersign.Severity
import Countersign.Text.Shown

/-! Rules. A rule reads one fact and has a table of thresholds by severity, and the signer may put
thresholds of their own over those it comes with. A rule is built only if every threshold fits the
kind of value that it judges. -/

namespace Countersign

abbrev ThresholdTable := Table Severity Threshold

structure Rule where
  id : String
  /-- The name of the fact that the rule reads. -/
  factKey : String
  enabled : Bool
  kind : ValueKind
  defaults : ThresholdTable
  custom : ThresholdTable
deriving DecidableEq

/-- Why a rule or a list of rules is refused. -/
inductive RuleError where
  | emptyId
  | shapeMismatch (rule : String) (severity : Severity) (kind : ValueKind) (threshold : Threshold)
  | invalidRange (rule : String) (severity : Severity)
  | unknownMember (rule : String) (severity : Severity) (member : String)
  /-- A threshold for outcomes that could not be evaluated. -/
  | unknownSeverity (rule : String)
  | duplicate (rule : String)
deriving DecidableEq

def RuleError.message : RuleError → String
  | emptyId => "rule id must not be empty"
  | shapeMismatch rule severity kind threshold =>
    s!"rule {rule}: {threshold.shape} threshold does not fit {kind.text} value kind " ++
      s!"({severity.title})"
  | invalidRange rule severity => s!"rule {rule}: invalid numeric range for {severity.title}"
  | unknownMember rule severity member =>
    s!"rule {rule}: enum threshold member {Text.shown member} is not declared ({severity.title})"
  | unknownSeverity rule => s!"rule {rule}: thresholds cannot be keyed by Error severity"
  | duplicate rule => s!"duplicate rule id {rule}"

namespace Rule

/-- Why a threshold does not fit a rule, if it does not. -/
def thresholdError? (id : String) (kind : ValueKind) (severity : Severity) (threshold : Threshold) :
    Option RuleError :=
  if severity = .unknown then some (.unknownSeverity id)
  else match kind, threshold with
    | .boolean, .flag _ => none
    | .choice declared, .members names =>
      (names.keys.find? fun n => !declared.contains n).map (.unknownMember id severity)
    | kind, .range r =>
      if kind.isNumeric then
        if r.isValid then none else some (.invalidRange id severity)
      else some (.shapeMismatch id severity kind threshold)
    | kind, threshold => some (.shapeMismatch id severity kind threshold)

/-- The rule with the given parts. It reads the fact named like itself unless another is given. -/
def make (id : String) (factKey : Option String) (enabled : Bool) (kind : ValueKind)
    (defaults custom : ThresholdTable) : Except RuleError Rule :=
  if id.isEmpty then .error .emptyId
  else match (defaults.rows ++ custom.rows).findSome? fun r => thresholdError? id kind r.1 r.2 with
    | some e => .error e
    | none => .ok ⟨id, factKey.getD id, enabled, kind, defaults, custom⟩

/-- The threshold in effect for a severity: the signer's own, or else the one the rule comes
with. -/
def threshold? (r : Rule) (severity : Severity) : Option Threshold :=
  (r.custom.get? severity).or (r.defaults.get? severity)

def thresholds (r : Rule) : ThresholdTable :=
  r.custom.rows.foldl (fun t row => t.insert row.1 row.2) r.defaults

theorem get?_thresholds (r : Rule) (severity : Severity) :
    r.thresholds.get? severity = r.threshold? severity :=
  Table.get?_foldl_insert r.defaults r.custom severity

def withEnabled (r : Rule) (enabled : Bool) : Rule := { r with enabled }

@[simp] theorem id_withEnabled (r : Rule) (enabled : Bool) :
    (r.withEnabled enabled).id = r.id := rfl

/-- The rule with a threshold of the signer's own. -/
def withThreshold (r : Rule) (severity : Severity) (threshold : Threshold) :
    Except RuleError Rule :=
  match thresholdError? r.id r.kind severity threshold with
  | some e => .error e
  | none => .ok { r with custom := r.custom.insert severity threshold }

theorem withThreshold_eq_ok_iff {r s : Rule} {severity : Severity} {threshold : Threshold} :
    r.withThreshold severity threshold = .ok s ↔
      thresholdError? r.id r.kind severity threshold = none ∧
        s = { r with custom := r.custom.insert severity threshold } := by
  unfold withThreshold
  split
  · next h => simp [h]
  · next h => simp [h, eq_comm]

end Rule

end Countersign
