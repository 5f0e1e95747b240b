import Countersign.Fact

/-! The kinds of value that rules judge, and the thresholds they judge them by. A kind says how a
fact is read, and a threshold accepts some of the readings of the kinds that it fits. -/

namespace Countersign

/-- An interval of numbers, without end on a side that has no bound. -/
structure Interval where
  min : Option Binary64
  max : Option Binary64
  minIncluded : Bool
  maxIncluded : Bool
deriving DecidableEq

namespace Interval

/-- All numbers from `x` on. -/
def atLeast (x : Binary64) : Interval := ⟨some x, none, true, false⟩

/-- All numbers below `x`. -/
def below (x : Binary64) : Interval := ⟨none, some x, false, false⟩

def aboveMin (r : Interval) (x : Binary64) : Bool :=
  match r.min with
  | none => true
  | some bound => if r.minIncluded then bound.le x else bound.lt x

def belowMax (r : Interval) (x : Binary64) : Bool :=
  match r.max with
  | none => true
  | some bound => if r.maxIncluded then x.le bound else x.lt bound

def contains (r : Interval) (x : Binary64) : Bool := r.aboveMin x && r.belowMax x

/-- The bounds are finite, and the lower one is not above the upper one. -/
def isValid (r : Interval) : Bool :=
  r.min.all (·.isFinite) && r.max.all (·.isFinite) &&
  match r.min, r.max with
  | some low, some high => low.le high
  | _, _ => true

end Interval

/-- What a rule judges. The bounds are those that the rule's author declares for the value. -/
inductive ValueKind where
  | boolean
  | int (min max : Option Int64)
  | float (min max : Option Binary64)
  | percent (min max : Option Binary64)
  /-- One of some names. -/
  | choice (members : NameSet)
deriving DecidableEq

/-- What a fact says to a rule. -/
inductive Reading where
  | flag (b : Bool)
  | number (x : Binary64)
  | name (s : String)
deriving DecidableEq

namespace ValueKind

def text : ValueKind → String
  | boolean => "boolean"
  | int .. => "int"
  | float .. => "float"
  | percent .. => "percent"
  | choice _ => "enum"

def isNumeric : ValueKind → Bool
  | int .. | float .. | percent .. => true
  | boolean | choice _ => false

/-- What a fact says to a rule of this kind, if it fits. -/
def reading? : ValueKind → Fact → Option Reading
  | boolean, .bool b => some (.flag b)
  | int .., fact => fact.wholeNumber?.map .number
  | float .., fact => fact.number?.map .number
  | percent .., fact => fact.number?.map .number
  | choice _, .text s => some (.name s)
  | _, _ => none

end ValueKind

/-- What a value has to be for a rule to give a certain severity. -/
inductive Threshold where
  | range (r : Interval)
  | flag (b : Bool)
  | members (names : NameSet)
deriving DecidableEq

namespace Threshold

/-- The name of the threshold's shape. -/
def shape : Threshold → String
  | range _ => "range"
  | flag _ => "flag"
  | members _ => "members"

def accepts : Threshold → Reading → Bool
  | range r, .number x => r.contains x
  | flag b, .flag c => b = c
  | members names, .name s => names.contains s
  | _, _ => false

end Threshold

end Countersign
