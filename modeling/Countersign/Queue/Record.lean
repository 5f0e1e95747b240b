import Countersign.Draft
import Countersign.Gas.Estimate
import Countersign.Gas.Limit

/-! Records of submitted transactions that are not known to be confirmed. The amounts in a record
are texts as they were submitted, and what cannot be read as an amount counts as zero. -/

namespace Countersign

structure PendingRecord where
  chainId : UInt64
  sender : Address
  nonce : UInt64
  value : Option String
  gasUsed : Option UInt64
  gasLimit : Option String
  /-- The gas limit under the name that older records have for it. -/
  gas : Option String
  gasPrice : Option String
  maxFee : Option String
  /-- The transaction is confirmed or dropped. -/
  completed : Bool
deriving DecidableEq

namespace PendingRecord

def ofNonce (chainId : UInt64) (sender : Address) (nonce : UInt64) : PendingRecord :=
  ⟨chainId, sender, nonce, none, none, none, none, none, none, false⟩

/-- The gas that the transaction may use: the first positive one of the gas used and the two
limits. -/
def gasFigure (r : PendingRecord) : UInt64 :=
  (((positive? r.gasUsed).or
    (positive? (r.gasLimit.bind Quantity.readWord?))).or
    (r.gas.bind Quantity.readWord?)).getD 0

/-- The price of the gas: the gas price, or else the highest fee. -/
def price (r : PendingRecord) : Wei :=
  if Quantity.readOrZero r.gasPrice = Wei.zero then Quantity.readOrZero r.maxFee
  else Quantity.readOrZero r.gasPrice

def cost (r : PendingRecord) : PendingCost where
  nonce := r.nonce
  value := Quantity.readOrZero r.value
  price := r.price
  gas := r.gasFigure

end PendingRecord

end Countersign
