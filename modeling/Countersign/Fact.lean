import Countersign.Binary64.Nearest
import Countersign.Table

/-! The facts about a draft that rules are evaluated on. -/

namespace Countersign

inductive Fact where
  | bool (b : Bool)
  | int (i : Int64)
  | float (x : Binary64)
  | text (s : String)
deriving DecidableEq

abbrev Facts := Table String Fact

namespace Fact

/-- The number that a fact is compared as; an integer is the nearest binary64 number. -/
def number? : Fact → Option Binary64
  | int i => some (Binary64.ofInt i.toInt)
  | float x => if x.isFinite then some x else none
  | _ => none

/-- The number of a fact that is a whole one. -/
def wholeNumber? : Fact → Option Binary64
  | int i => some (Binary64.ofInt i.toInt)
  | float x => if x.isWhole then some x else none
  | _ => none

end Fact

end Countersign
