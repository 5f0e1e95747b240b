import Countersign.Gas.Policy

/-! The gas figure that a draft is planned with. The first positive one of these is taken: what the
simulation declares, what the draft asks for, what earlier transactions of its shape used, and the
policy's fallback. The first two are known at once, so history need not always be consulted. -/

namespace Countersign

/-- Where a gas figure comes from. -/
inductive GasSource where
  | declared
  | draft
  | history
  | fallback
deriving DecidableEq

def GasSource.text : GasSource → String
  | declared => "declared"
  | draft => "tx_field"
  | history => "history"
  | fallback => "fallback"

structure GasEstimate where
  gas : UInt64
  /-- The gas expected to be used, which the expected cost is computed from. -/
  gasUsed : UInt64
  /-- The figure is a bare estimate and is to be scaled. -/
  needsRatio : Bool
  source : GasSource
deriving DecidableEq

/-- A figure unless it is zero, which stands for none. -/
def positive? (figure : Option UInt64) : Option UInt64 := figure.filter (0 < ·)

/-- The results of running a draft before it is sent. -/
structure Simulation where
  gasUsed : UInt64
  gasLimit : Option UInt64
  success : Bool
deriving DecidableEq

/-- The figure that a simulation declares. A failed one declares nothing. -/
def Simulation.declaredGas (s : Simulation) : Option UInt64 :=
  if s.success then (positive? s.gasLimit).or (positive? (some s.gasUsed)) else none

namespace GasEstimate

/-- The estimate if it can be had without history. -/
def known? (declared : Option UInt64) (simulatedUse : UInt64) (asked : Option UInt64) :
    Option GasEstimate :=
  match positive? declared, positive? asked with
  | some gas, _ => some ⟨gas, simulatedUse, true, .declared⟩
  | none, some gas => some ⟨gas, gas, true, .draft⟩
  | none, none => none

/-- The estimate once history has been consulted. -/
def ofHistory (policy : GasPolicy) (history : Option UInt64) : GasEstimate :=
  match positive? history with
  | some gas => ⟨gas, gas, true, .history⟩
  | none => ⟨policy.fallbackGasLimit, policy.fallbackGasLimit, false, .fallback⟩

/-- The ratio that a figure is scaled by on a chain. -/
def ratio (e : GasEstimate) (policy : GasPolicy) (chain : UInt64) : GasRatio :=
  if e.needsRatio then policy.ratioFor chain else .one

theorem known?_eq_none_iff {declared asked : Option UInt64} {use : UInt64} :
    known? declared use asked = none ↔ positive? declared = none ∧ positive? asked = none := by
  unfold known?
  split <;> simp_all

end GasEstimate

end Countersign
