import Countersign.Wei

/-! The price levels that a fee market offers, and which of them a draft starts on. -/

namespace Countersign

inductive FeeKind where
  | slow
  | normal
  | fast
  | custom
deriving DecidableEq

namespace FeeKind

def all : List FeeKind := [slow, normal, fast, custom]

def text : FeeKind → String
  | slow => "slow"
  | normal => "normal"
  | fast => "fast"
  | custom => "custom"

def read? (s : String) : Option FeeKind := all.find? fun k => k.text = s

theorem read?_text (k : FeeKind) : read? k.text = some k := by cases k <;> decide

end FeeKind

structure FeeLevel where
  kind : FeeKind
  price : Wei
  /-- A priority fee that the market names itself. -/
  priority : Option Wei
  /-- The time until a transaction is expected to be included. -/
  seconds : UInt64
deriving DecidableEq

/-- What the signer chose the last time on the same chain. -/
inductive LastChoice where
  | level (kind : FeeKind)
  | customPrice (price : Wei)
deriving DecidableEq

def LastChoice.isCustomPrice : LastChoice → Bool
  | level _ => false
  | customPrice _ => true

namespace FeeLevel

def ofKind? (levels : List FeeLevel) (kind : FeeKind) : Option FeeLevel :=
  levels.find? fun l => l.kind = kind

/-- The level that the last choice asks for. -/
def remembered? (levels : List FeeLevel) : Option LastChoice → Option FeeLevel
  | some (.level kind) => ofKind? levels kind
  | _ => none

/-- The level that a draft starts on: the custom one for a draft that prefers it or after a custom
price, else the remembered one, else the normal one; a level that is not offered is passed over. -/
def start? (levels : List FeeLevel) (last : Option LastChoice) (prefersCustom : Bool) :
    Option FeeLevel :=
  let custom :=
    if prefersCustom || last.any (·.isCustomPrice) then ofKind? levels .custom else none
  (custom.or (remembered? levels last)).or (ofKind? levels .normal)

end FeeLevel

end Countersign
