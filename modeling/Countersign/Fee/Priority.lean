import Countersign.Fee.Level

/-! Priority fees. On the main network a level that names none gets a tenth of its price, and four
fifths of what it costs above the cheapest level of the market; elsewhere, and for a signer who pays
the full price, the fee is the price. -/

namespace Countersign.FeeLevel

/-- The one chain with a priority fee of its own. -/
def mainnet : UInt64 := 1

/-- The first of the levels with the lowest price, custom levels apart. -/
def cheapest? (levels : List FeeLevel) : Option FeeLevel :=
  match levels.filter fun l => l.kind ≠ .custom with
  | [] => none
  | l :: ls => some (ls.foldl (fun best l => if l.price < best.price then l else best) l)

/-- The fee of a level that names none, in a market whose cheapest level is `cheapest`. -/
def derivedPriority (target cheapest : FeeLevel) : Wei :=
  let tenth := target.price / Wei.ofWord 10
  if target.price < cheapest.price || cheapest.kind = target.kind then tenth
  else
    let gap := target.price.wrappingSub cheapest.price
    (gap * Wei.ofWord 8 / Wei.ofWord 10).wrappingAdd tenth

def priorityFee (levels : List FeeLevel) (target : FeeLevel) (chain : UInt64) (paysFull : Bool) :
    Wei :=
  if chain ≠ mainnet || paysFull then target.price
  else match target.priority.filter (· ≠ Wei.zero) with
    | some fee => fee
    | none =>
      match cheapest? levels with
      | none => target.price
      | some cheapest => derivedPriority target cheapest

end Countersign.FeeLevel
