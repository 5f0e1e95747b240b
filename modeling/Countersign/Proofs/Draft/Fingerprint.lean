import Countersign.Draft
import Mathlib.Data.List.Basic

/-! Which drafts the bytes of a fingerprint tell apart. A separator stands between the fields, but
it may occur in them too, and a recipient that is not there leaves no byte behind. So one layout can
be read as another: the recipient, if it starts with a separator, where a contract creation has its
value. Main statement: `fingerprintBytes_eq_iff`, by which nothing else is mistaken. -/

namespace Countersign.Draft

variable {d e : Draft}

/-- Two drafts agree in every field that a fingerprint is computed from. -/
structure SameRequest (d e : Draft) : Prop where
  chainId : d.chainId = e.chainId
  sender : d.sender = e.sender
  recipient : d.recipient = e.recipient
  value : d.value = e.value
  data : d.data = e.data
  kind : d.kind = e.kind

/-! ### Fields as bytes -/

def separator : UInt8 := 0xFF

def recipientBytes (d : Draft) : List UInt8 := (d.recipient.map Address.toList).getD []

def valueBytes (d : Draft) : List UInt8 := littleEndian 32 d.value.toNat

def kindBytes (kind : DraftKind) : List UInt8 := kind.text.toList.map fun c => UInt8.ofNat c.toNat

/-- The recipient, the value and the data. -/
def payload (d : Draft) : List UInt8 :=
  d.recipientBytes ++ separator :: (d.valueBytes ++ separator :: d.data)

theorem fingerprintBytes_eq (d : Draft) :
    d.fingerprintBytes =
      littleEndian 8 d.chainId.toNat ++ separator ::
        (d.sender.toList ++ separator :: (d.payload ++ separator :: kindBytes d.kind)) := by
  simp [fingerprintBytes, payload, recipientBytes, valueBytes, kindBytes, separator]

@[simp] theorem length_valueBytes (d : Draft) : d.valueBytes.length = 32 := length_littleEndian _ _

theorem value_inj (h : d.valueBytes = e.valueBytes) : d.value = e.value := by
  have hsize : Wei.size = Nat.pow 256 32 := rfl
  exact Wei.ext (littleEndian_inj (hsize ▸ d.value.lt) (hsize ▸ e.value.lt) h)

theorem chainId_inj (h : littleEndian 8 d.chainId.toNat = littleEndian 8 e.chainId.toNat) :
    d.chainId = e.chainId := by
  have hsize : UInt64.size = Nat.pow 256 8 := rfl
  exact UInt64.toNat_inj.1
    (littleEndian_inj (hsize ▸ d.chainId.toNat_lt_size) (hsize ▸ e.chainId.toNat_lt_size) h)

theorem separator_notMem_kindBytes (kind : DraftKind) : separator ∉ kindBytes kind := by
  cases kind <;> decide

theorem kindBytes_inj {k l : DraftKind} : kindBytes k = kindBytes l → k = l := by
  cases k <;> cases l <;> decide

theorem recipientBytes_of_none (h : d.recipient = none) : d.recipientBytes = [] := by
  rw [recipientBytes, h]
  rfl

theorem recipientBytes_of_some {a : Address} (h : d.recipient = some a) :
    d.recipientBytes = a.toList := by
  rw [recipientBytes, h]
  rfl

/-! ### Taking the fields apart -/

/-- What stands behind the last separator is known, whatever stands before it. -/
theorem append_separator_inj {a b x y : List UInt8} (hx : separator ∉ x) (hy : separator ∉ y)
    (h : a ++ separator :: x = b ++ separator :: y) : a = b ∧ x = y := by
  rcases List.append_eq_append_iff.1 h with ⟨more, rfl, hmore⟩ | ⟨more, rfl, hmore⟩
  · cases more with
    | nil => exact ⟨(List.append_nil a).symm, List.tail_eq_of_cons_eq hmore⟩
    | cons m more =>
      have : x = more ++ separator :: y := List.tail_eq_of_cons_eq hmore
      exact absurd (by simp [this]) hx
  · cases more with
    | nil => exact ⟨List.append_nil b, (List.tail_eq_of_cons_eq hmore).symm⟩
    | cons m more =>
      have : y = more ++ separator :: x := List.tail_eq_of_cons_eq hmore
      exact absurd (by simp [this]) hy

theorem fields_of_fingerprintBytes_eq (h : d.fingerprintBytes = e.fingerprintBytes) :
    d.chainId = e.chainId ∧ d.sender = e.sender ∧ d.payload = e.payload ∧ d.kind = e.kind := by
  rw [fingerprintBytes_eq, fingerprintBytes_eq] at h
  obtain ⟨hchain, h⟩ := List.append_inj h (by simp)
  obtain ⟨hsender, h⟩ := List.append_inj (List.tail_eq_of_cons_eq h) (by simp)
  obtain ⟨hpayload, hkind⟩ := append_separator_inj (separator_notMem_kindBytes _)
    (separator_notMem_kindBytes _) (List.tail_eq_of_cons_eq h)
  exact ⟨chainId_inj hchain, Address.toList_inj hsender, hpayload, kindBytes_inj hkind⟩

/-- Recipients of the same length keep the value and the data in their places. -/
theorem payload_inj (hlen : d.recipientBytes.length = e.recipientBytes.length)
    (h : d.payload = e.payload) :
    d.recipientBytes = e.recipientBytes ∧ d.value = e.value ∧ d.data = e.data := by
  obtain ⟨hrecipient, h⟩ := List.append_inj h hlen
  obtain ⟨hvalue, h⟩ := List.append_inj (List.tail_eq_of_cons_eq h) (by simp)
  exact ⟨hrecipient, value_inj hvalue, List.tail_eq_of_cons_eq h⟩

/-! ### The recipient in the place of the value -/

/-- `e` creates a contract. Its value is spelled by what follows the first byte of the recipient of
`d` and by the start `low` of the value of `d`, and its data begins with the rest `high`. -/
structure Displaced (d e : Draft) : Prop where
  chainId : d.chainId = e.chainId
  sender : d.sender = e.sender
  kind : d.kind = e.kind
  creates : e.recipient = none
  moved : ∃ recipient tail low high,
    d.recipient = some recipient ∧ recipient.toList = separator :: tail ∧
    d.valueBytes = low ++ separator :: high ∧
    e.valueBytes = tail ++ separator :: low ∧ e.data = high ++ separator :: d.data

theorem Displaced.not_sameRequest (h : Displaced d e) : ¬SameRequest d e := by
  obtain ⟨recipient, -, -, -, hr, -⟩ := h.moved
  intro hsame
  have hrecipient : some recipient = none := by rw [← hr, hsame.recipient, h.creates]
  cases hrecipient

theorem Displaced.payload_eq (h : Displaced d e) : d.payload = e.payload := by
  obtain ⟨recipient, tail, low, high, hr, ht, hd, he, hdata⟩ := h.moved
  rw [payload, payload, recipientBytes_of_some hr, recipientBytes_of_none h.creates, ht, hd, he,
    hdata]
  simp

/-- A recipient in one of two equal payloads only stands where the other has its value. -/
theorem moved_of_payload_eq {recipient : Address} (hd : d.recipient = some recipient)
    (he : e.recipient = none) (h : d.payload = e.payload) :
    ∃ tail low high, recipient.toList = separator :: tail ∧
      d.valueBytes = low ++ separator :: high ∧
      e.valueBytes = tail ++ separator :: low ∧ e.data = high ++ separator :: d.data := by
  rw [payload, payload, recipientBytes_of_some hd, recipientBytes_of_none he] at h
  have hlen := recipient.length_toList
  cases hr : recipient.toList with
  | nil => simp [hr, Address.size] at hlen
  | cons first tail =>
    rw [hr, List.cons_append, List.nil_append] at h
    obtain ⟨rfl, hbody⟩ := List.cons.inj h
    rw [hr] at hlen
    have htail : tail.length = 19 := by simpa [Address.size] using hlen
    -- The first twelve bytes of the value of `d` are the last twelve of the value of `e`.
    have hsplit : (tail ++ separator :: d.valueBytes.take 12) ++
        (d.valueBytes.drop 12 ++ separator :: d.data) = e.valueBytes ++ separator :: e.data := by
      rw [← hbody]
      calc (tail ++ separator :: d.valueBytes.take 12) ++
            (d.valueBytes.drop 12 ++ separator :: d.data)
          = tail ++ separator :: (d.valueBytes.take 12 ++
              (d.valueBytes.drop 12 ++ separator :: d.data)) := by
            simp only [List.append_assoc, List.cons_append]
        _ = tail ++ separator :: (d.valueBytes ++ separator :: d.data) := by
            rw [← List.append_assoc (d.valueBytes.take 12), List.take_append_drop]
    obtain ⟨hvalue, hrest⟩ := List.append_inj hsplit (by simp [htail])
    cases hhigh : d.valueBytes.drop 12 with
    | nil =>
      have := congrArg List.length hhigh
      simp at this
    | cons b high =>
      rw [hhigh] at hrest
      obtain ⟨rfl, hdata⟩ := List.cons.inj hrest
      refine ⟨tail, d.valueBytes.take 12, high, rfl, ?_, hvalue.symm, hdata.symm⟩
      rw [← hhigh, List.take_append_drop]

theorem sameRequest_or_displaced (h : d.fingerprintBytes = e.fingerprintBytes) :
    d.SameRequest e ∨ d.Displaced e ∨ e.Displaced d := by
  obtain ⟨hchain, hsender, hpayload, hkind⟩ := fields_of_fingerprintBytes_eq h
  cases hd : d.recipient with
  | none =>
    cases he : e.recipient with
    | none =>
      have hlen : d.recipientBytes.length = e.recipientBytes.length := by
        rw [recipientBytes_of_none hd, recipientBytes_of_none he]
      obtain ⟨-, hvalue, hdata⟩ := payload_inj hlen hpayload
      exact .inl ⟨hchain, hsender, hd.trans he.symm, hvalue, hdata, hkind⟩
    | some b =>
      obtain ⟨tail, low, high, hmoved⟩ := moved_of_payload_eq he hd hpayload.symm
      exact .inr (.inr ⟨hchain.symm, hsender.symm, hkind.symm, hd, b, tail, low, high, he, hmoved⟩)
  | some a =>
    cases he : e.recipient with
    | none =>
      obtain ⟨tail, low, high, hmoved⟩ := moved_of_payload_eq hd he hpayload
      exact .inr (.inl ⟨hchain, hsender, hkind, he, a, tail, low, high, hd, hmoved⟩)
    | some b =>
      have hlen : d.recipientBytes.length = e.recipientBytes.length := by
        rw [recipientBytes_of_some hd, recipientBytes_of_some he, Address.length_toList,
          Address.length_toList]
      obtain ⟨hrecipient, hvalue, hdata⟩ := payload_inj hlen hpayload
      rw [recipientBytes_of_some hd, recipientBytes_of_some he] at hrecipient
      have hab : a = b := Address.toList_inj hrecipient
      exact .inl ⟨hchain, hsender, by rw [hd, he, hab], hvalue, hdata, hkind⟩

theorem Displaced.fingerprintBytes_eq (h : Displaced d e) :
    d.fingerprintBytes = e.fingerprintBytes := by
  rw [Draft.fingerprintBytes_eq, Draft.fingerprintBytes_eq, h.chainId, h.sender, h.kind,
    h.payload_eq]

theorem SameRequest.fingerprintBytes_eq (h : SameRequest d e) :
    d.fingerprintBytes = e.fingerprintBytes := by
  simp only [fingerprintBytes, h.chainId, h.sender, h.recipient, h.value, h.data, h.kind]

theorem SameRequest.fingerprint_eq (h : SameRequest d e) : d.fingerprint = e.fingerprint :=
  fingerprint_eq_of_fields h.chainId h.sender h.recipient h.value h.data h.kind

/-- The bytes of two fingerprints are equal exactly if the drafts ask for the same transaction, or
one of them is the other with its recipient displaced. -/
theorem fingerprintBytes_eq_iff (d e : Draft) :
    d.fingerprintBytes = e.fingerprintBytes ↔ d.SameRequest e ∨ d.Displaced e ∨ e.Displaced d := by
  constructor
  · exact sameRequest_or_displaced
  · rintro (h | h | h)
    · exact h.fingerprintBytes_eq
    · exact h.fingerprintBytes_eq
    · exact h.fingerprintBytes_eq.symm

/-! ### A sample -/

/-- A transfer to an address that starts with a separator. The thirteenth byte of its value is one
too. -/
def sampleTransfer : Draft where
  chainId := 1
  sender := ⟨.replicate _ 0xAA⟩
  recipient := Address.ofBytes? (separator :: List.replicate 19 0)
  value := .cap (255 * Nat.pow 256 12)
  data := []
  nonce := none
  gasLimit := none
  gasPrice := none
  kind := .standard
  nonceEdited := false
  internalOrigin := false

/-- A contract creation with the bytes of the transfer. -/
def sampleCreation : Draft :=
  { sampleTransfer with
    recipient := none
    value := .cap (255 * Nat.pow 256 19)
    data := List.replicate 19 0 ++ [separator] }

/-- A transfer and a contract creation have the same bytes, although they differ in recipient, value
and data. -/
theorem fingerprintBytes_sampleCreation :
    sampleTransfer.fingerprintBytes = sampleCreation.fingerprintBytes ∧
      sampleTransfer.recipient.isSome = true ∧ sampleCreation.recipient = none ∧
      sampleTransfer.value ≠ sampleCreation.value ∧ sampleTransfer.data ≠ sampleCreation.data := by
  decide +kernel

end Countersign.Draft
