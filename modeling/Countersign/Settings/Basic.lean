import Countersign.Binary64.Shortest
import Countersign.Gas.Policy
import Countersign.Storage.FileTree

/-! Engine settings and the gas policy they make. A parameter that is not set has a default; one
that is set to something unusable is an error and never replaced by its default. -/

namespace Countersign

/-- The numeric parameters of the gas policy. -/
inductive Parameter where
  | defaultRatio
  | minimumGasLimit
  | fallbackGasLimit
  | lowBalanceCap
  | headroom
  | carefulRatio
deriving DecidableEq

namespace Parameter

def all : List Parameter :=
  [defaultRatio, minimumGasLimit, fallbackGasLimit, lowBalanceCap, headroom, carefulRatio]

def name : Parameter → String
  | defaultRatio => "default_gas_limit_ratio"
  | minimumGasLimit => "minimum_gas_limit"
  | fallbackGasLimit => "fallback_gas_limit"
  | lowBalanceCap => "insufficient_balance_ratio_cap"
  | headroom => "block_gas_limit_headroom"
  | carefulRatio => "safe_chain_gas_limit_ratio"

def read? (s : String) : Option Parameter := all.find? fun p => p.name = s

def default? : Parameter → Option Binary64
  | defaultRatio => some (Binary64.ofDecimal false 15 (-1))
  | minimumGasLimit => some (Binary64.ofDecimal false 21000 0)
  | fallbackGasLimit => some (Binary64.ofDecimal false 1000000 0)
  | lowBalanceCap => some (Binary64.ofDecimal false 15 (-1))
  | headroom => some (Binary64.ofDecimal false 95 (-2))
  | carefulRatio => some (Binary64.ofDecimal false 2 0)

end Parameter

/-- Why a parameter has no usable value. -/
inductive Unusable where
  | notFinite
  | negative
  | missing
deriving DecidableEq

def Unusable.text : Unusable → String
  | notFinite => "is non-finite (NaN or Infinity)"
  | negative => "is negative"
  | missing => "is missing and has no default"

structure ParameterError where
  parameter : Parameter
  reason : Unusable
deriving DecidableEq

def ParameterError.message (e : ParameterError) : String :=
  s!"config fail-closed: '{e.parameter.name}' {e.reason.text}"

/-- The value of a parameter: the one that is set, which has to be finite and not negative, or else
the default. -/
def Parameter.resolve (p : Parameter) (set : Option Binary64) : Except ParameterError Binary64 :=
  match set with
  | some x =>
    if !x.isFinite then .error ⟨p, .notFinite⟩
    else if x.lt .zero then .error ⟨p, .negative⟩
    else .ok x
  | none =>
    match p.default? with
    | some x => .ok x
    | none => .error ⟨p, .missing⟩

/-- Numbers in messages have the shortest digits, never an exponent, and a point only before
digits. -/
def messageLayout : Binary64.Layout := ⟨.up, fun _ => true, false⟩

def shownNumber (x : Binary64) : String :=
  if x.isNaN then "NaN"
  else if x.isFinite then String.ofList (messageLayout.numeral x).text
  else if x.negative then "-inf" else "inf"

inductive SettingsError where
  | read (path : String) (fault : FileFault)
  | parse
  | parameter (e : ParameterError)
  | outOfRange (name : String) (value : Binary64)
deriving DecidableEq

def SettingsError.message : SettingsError → String
  | read path _ => s!"failed to read settings {path}: {hostCause}"
  | parse => s!"failed to parse settings: {hostCause}"
  | parameter e => e.message
  | outOfRange name value => s!"'{name}' = {shownNumber value} is out of range"

structure Settings where
  defaultRatio : Option Binary64
  minimumGasLimit : Option Binary64
  fallbackGasLimit : Option Binary64
  lowBalanceCap : Option Binary64
  headroom : Option Binary64
  carefulRatio : Option Binary64
  /-- The chains that the ratio for careful chains applies to. -/
  carefulChains : Option (List UInt64)
  /-- Ratios of single chains, which go before those for careful chains. -/
  chainRatios : Table UInt64 Binary64
deriving DecidableEq

namespace Settings

/-- The field of ratios of single chains, as messages name it. -/
def chainRatiosName : String := "chain_gas_limit_ratios"

def standard : Settings := ⟨none, none, none, none, none, none, none, .empty⟩

def set? (s : Settings) : Parameter → Option Binary64
  | .defaultRatio => s.defaultRatio
  | .minimumGasLimit => s.minimumGasLimit
  | .fallbackGasLimit => s.fallbackGasLimit
  | .lowBalanceCap => s.lowBalanceCap
  | .headroom => s.headroom
  | .carefulRatio => s.carefulRatio

def resolve (s : Settings) (p : Parameter) : Except SettingsError Binary64 :=
  (p.resolve (s.set? p)).mapError .parameter

/-- A number as a ratio, with the name it goes by in messages. -/
def ratioOf (name : String) (x : Binary64) : Except SettingsError GasRatio :=
  match GasRatio.ofBinary64? x with
  | some r => .ok r
  | none => .error (.outOfRange name x)

def ratio (s : Settings) (p : Parameter) : Except SettingsError GasRatio := do
  ratioOf p.name (← s.resolve p)

/-- A gas figure: a whole number below 2^64. -/
def gas (s : Settings) (p : Parameter) : Except SettingsError UInt64 := do
  let x ← s.resolve p
  match if x.isWhole then Word.ofNat? x.wholePart else none with
  | some w => return w
  | none => throw (.outOfRange p.name x)

/-- The headroom below the block gas limit, above zero and up to one, to the nearest percent. -/
def headroomPercent (s : Settings) : Except SettingsError UInt64 := do
  let x ← s.resolve .headroom
  if x.le .zero || (Binary64.ofInt 1).lt x then
    throw (.outOfRange Parameter.headroom.name x)
  return Word.cap (x.times 100).roundHalfUp

/-- The ratios by chain: `careful` for careful chains, and over it the ratios of single chains. -/
def ratioTable (s : Settings) (careful : GasRatio) :
    Except SettingsError (Table UInt64 GasRatio) := do
  let chains := s.carefulChains.getD GasPolicy.carefulChains
  let own ← s.chainRatios.rows.mapM fun row => do return (row.1, ← ratioOf chainRatiosName row.2)
  return Table.ofList (chains.map (fun chain => (chain, careful)) ++ own)

/-- The gas policy of the settings. What is wrong with the ratios by default, for careful chains and
for single chains is reported first, and then what is wrong with the headroom, the gas figures and
the cap. -/
def gasPolicy (s : Settings) : Except SettingsError GasPolicy := do
  let defaultRatio ← s.ratio .defaultRatio
  let careful ← s.ratio .carefulRatio
  let chainRatios ← s.ratioTable careful
  let headroomPercent ← s.headroomPercent
  let minimumGasLimit ← s.gas .minimumGasLimit
  let fallbackGasLimit ← s.gas .fallbackGasLimit
  let lowBalanceCap ← s.ratio .lowBalanceCap
  return {
    defaultRatio, chainRatios, minimumGasLimit, fallbackGasLimit, lowBalanceCap, headroomPercent }

end Settings

end Countersign
