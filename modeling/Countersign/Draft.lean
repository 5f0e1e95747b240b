import Countersign.Address
import Countersign.Digest
import Countersign.Quantity

/-! Transaction drafts and their fingerprints. A fingerprint covers what the requester supplied. The
gas limit, the gas price and the nonce stay out of it, because the signer may edit them while the
draft is open. -/

namespace Countersign

/-- What a draft does to a transaction that was already submitted, if anything. -/
inductive DraftKind where
  | standard
  | speedUp
  | cancel
deriving DecidableEq

namespace DraftKind

def text : DraftKind → String
  | standard => "standard"
  | speedUp => "speed_up"
  | cancel => "cancel"

/-- The draft takes the place of a submitted transaction. -/
def replaces : DraftKind → Bool
  | standard => false
  | speedUp | cancel => true

theorem replaces_eq_false_iff {k : DraftKind} : k.replaces = false ↔ k = standard := by
  cases k <;> decide

end DraftKind

/-- Why a draft keeps its own nonce. -/
inductive KeepReason where
  | speedUp
  | cancel
  | selfTransfer
  | manualEdit
deriving DecidableEq

def KeepReason.text : KeepReason → String
  | speedUp => "SpeedUp"
  | cancel => "Cancel"
  | selfTransfer => "SelfTransfer"
  | manualEdit => "ManualEdit"

/-- A transaction as submitted for signing. Without a recipient it creates a contract. -/
structure Draft where
  chainId : UInt64
  sender : Address
  recipient : Option Address
  value : Wei
  data : List UInt8
  nonce : Option UInt64
  gasLimit : Option UInt64
  gasPrice : Option Wei
  kind : DraftKind
  /-- The signer has changed the nonce by hand. -/
  nonceEdited : Bool
  /-- The wallet has built the draft itself; its gas limit is signed as it is. -/
  internalOrigin : Bool
deriving DecidableEq

structure Fingerprint where
  word : UInt64
deriving DecidableEq

def Fingerprint.text (f : Fingerprint) : String := String.ofList (Text.Hex.ofWord f.word)

namespace Draft

/-- The gas limit that is signed as it is: the one that a wallet-built draft supplies. -/
def exactGasLimit (d : Draft) : Option UInt64 :=
  d.gasLimit.filter fun g => d.internalOrigin && 0 < g

/-- The draft starts on the custom fee level. -/
def prefersCustomFee (d : Draft) : Bool := d.kind.replaces || d.gasPrice.isSome

def isSelfTransfer (d : Draft) : Bool := d.recipient = some d.sender

/-- Why the nonce of the draft must not be replaced, if it must not. -/
def keepReason? (d : Draft) : Option KeepReason :=
  match d.kind with
  | .speedUp => some .speedUp
  | .cancel => some .cancel
  | .standard =>
    if d.nonce.isSome && d.isSelfTransfer then some .selfTransfer
    else if d.nonceEdited then some .manualEdit
    else none

theorem isSome_keepReason?_iff {d : Draft} : d.keepReason?.isSome = true ↔
    d.kind.replaces = true ∨ d.nonce.isSome = true ∧ d.recipient = some d.sender ∨
      d.nonceEdited = true := by
  unfold keepReason?
  cases d.kind with
  | speedUp | cancel => simp [DraftKind.replaces]
  | standard =>
    have hself : (d.nonce.isSome && d.isSelfTransfer) = true ↔
        d.nonce.isSome = true ∧ d.recipient = some d.sender := by simp [isSelfTransfer]
    by_cases hs : (d.nonce.isSome && d.isSelfTransfer) = true
    · simp [hs, ← hself]
    · cases he : d.nonceEdited <;> simp [hs, ← hself, DraftKind.replaces]

/-- The draft with a nonce that the signer has set by hand. -/
def withNonce (d : Draft) (nonce : UInt64) : Draft :=
  { d with nonce := some nonce, nonceEdited := true }

/-- The `count` bytes of `n`, the lowest first. -/
def littleEndian : (count : Nat) → (n : Nat) → List UInt8
  | 0, _ => []
  | count + 1, n => UInt8.ofNat n :: littleEndian count (n / 256)

/-- The bytes that the fingerprint is computed from: six fields with a byte of ones after each but
the last. -/
def fingerprintBytes (d : Draft) : List UInt8 :=
  littleEndian 8 d.chainId.toNat ++ [0xFF] ++
  d.sender.toList ++ [0xFF] ++
  (d.recipient.map Address.toList).getD [] ++ [0xFF] ++
  littleEndian 32 d.value.toNat ++ [0xFF] ++
  d.data ++ [0xFF] ++
  d.kind.text.toList.map fun c => UInt8.ofNat c.toNat

def fingerprint (d : Draft) : Fingerprint := ⟨Digest.xxh64 d.fingerprintBytes⟩

@[simp] theorem length_littleEndian (count n : Nat) : (littleEndian count n).length = count := by
  induction count generalizing n with
  | zero => rfl
  | succ count ih => simp [littleEndian, ih]

/-- Numbers that fit are told apart by their bytes. -/
theorem littleEndian_inj {count m n : Nat} (hm : m < Nat.pow 256 count)
    (hn : n < Nat.pow 256 count) (h : littleEndian count m = littleEndian count n) : m = n := by
  induction count generalizing m n with
  | zero =>
    have hm' : m < 1 := hm
    have hn' : n < 1 := hn
    omega
  | succ count ih =>
    simp only [littleEndian, List.cons.injEq] at h
    have hlow : m % 256 = n % 256 := by
      have := congrArg UInt8.toNat h.1
      simpa using this
    have hm' : m < 256 * Nat.pow 256 count := by
      rw [Nat.mul_comm]
      exact hm
    have hn' : n < 256 * Nat.pow 256 count := by
      rw [Nat.mul_comm]
      exact hn
    have hhigh : m / 256 = n / 256 :=
      ih (Nat.div_lt_of_lt_mul hm') (Nat.div_lt_of_lt_mul hn') h.2
    omega

theorem fingerprint_eq_of_fields {d e : Draft} (hc : d.chainId = e.chainId)
    (hs : d.sender = e.sender) (hr : d.recipient = e.recipient) (hv : d.value = e.value)
    (hd : d.data = e.data) (hk : d.kind = e.kind) : d.fingerprint = e.fingerprint := by
  simp [fingerprint, fingerprintBytes, hc, hs, hr, hv, hd, hk]

/-- Editing the nonce by hand keeps the fingerprint. -/
@[simp] theorem fingerprint_withNonce (d : Draft) (nonce : UInt64) :
    (d.withNonce nonce).fingerprint = d.fingerprint := rfl

end Draft

end Countersign
