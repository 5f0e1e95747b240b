import Countersign.Proofs.Check.Findings
import Countersign.Proofs.Session.Nonce

/-! Whether a draft is signed with its own nonce or with the recommended one. The recommended nonce
is never too low, so a nonce that is found to be too low is one that the draft has kept
(`nonceLow_runAll`). A draft that replaces a transaction keeps its nonce as well, unless it has none
or the contract of a multisig has spent it (`replacement_nonce_runAll`). -/

namespace Countersign

/-- The nonces of the contract, for an account that goes by them. -/
def Account.safeNonces? (account : Account) (snapshot : Snapshot) : Option SafeNonces :=
  snapshot.safe.filter fun _ => account.isMultisig

namespace Snapshot

/-- The lowest nonce that neither the chain nor the local queue has used. -/
def chainFree (snapshot : Snapshot) : ℕ :=
  max snapshot.onChainNonce.toNat ((snapshot.queuedNonce.map (·.toNat)).getD 0)

/-- The lowest nonce that is not found to be too low. -/
def lowestNonce (snapshot : Snapshot) (account : Account) : ℕ :=
  match account.safeNonces? snapshot with
  | some safe => safe.current.toNat
  | none => snapshot.chainFree

/-- The lowest nonce that no other transaction takes. -/
def freeNonce (snapshot : Snapshot) (account : Account) : ℕ :=
  match account.safeNonces? snapshot with
  | some safe => safe.firstFree
  | none => snapshot.chainFree

end Snapshot

/-- Why the own nonce of a draft is not replaced. Only the first reason counts on a multisig whose
nonces are known and have passed it. -/
inductive Draft.Stands (draft : Draft) (account : Account) (snapshot : Snapshot) (own : UInt64) :
    Prop where
  | edited (byHand : draft.nonceEdited = true)
  | unspent {safe : SafeNonces} (known : account.safeNonces? snapshot = some safe)
    (free : safe.current ≤ own)
  | replaces (ordinary : account.safeNonces? snapshot = none) (kind : draft.kind.replaces = true)
  | selfTransfer (ordinary : account.safeNonces? snapshot = none)
    (back : draft.recipient = some draft.sender)

variable {draft : Draft} {account : Account} {snapshot : Snapshot} {safe : SafeNonces}
  {own : UInt64}

namespace SignedNonce

theorem resolve_of_some (h : account.safeNonces? snapshot = some safe) :
    resolve draft account snapshot = ofSafe draft safe := by
  unfold resolve
  rw [Account.safeNonces?] at h
  rw [h]

theorem resolve_of_none (h : account.safeNonces? snapshot = none) :
    resolve draft account snapshot =
      ofChain draft snapshot.onChainNonce snapshot.queuedNonce := by
  unfold resolve
  rw [Account.safeNonces?] at h
  rw [h]

/-! ### The recommended nonce -/

theorem toNat_floor (draft : Draft) (account : Account) (snapshot : Snapshot) :
    (resolve draft account snapshot).floor.toNat = snapshot.lowestNonce account := by
  unfold Snapshot.lowestNonce
  cases h : account.safeNonces? snapshot with
  | some safe =>
    rw [resolve_of_some h]
    rfl
  | none =>
    rw [resolve_of_none h]
    exact Nonce.toNat_next _ _

theorem toNat_recommended (draft : Draft) (account : Account) (snapshot : Snapshot) :
    (resolve draft account snapshot).recommended.toNat =
      min (snapshot.freeNonce account) (UInt64.size - 1) := by
  unfold Snapshot.freeNonce
  cases h : account.safeNonces? snapshot with
  | some safe =>
    rw [resolve_of_some h]
    exact safe.toNat_next
  | none =>
    have hword := (Nonce.next snapshot.onChainNonce snapshot.queuedNonce).toNat_lt_size
    have hnext : _ = snapshot.chainFree := Nonce.toNat_next _ _
    rw [resolve_of_none h]
    show (Nonce.next _ _).toNat = min snapshot.chainFree _
    omega

theorem recommended_eq (draft : Draft) (account : Account) (snapshot : Snapshot) :
    (resolve draft account snapshot).recommended = Word.cap (snapshot.freeNonce account) := by
  apply UInt64.toNat_inj.mp
  rw [toNat_recommended, Word.toNat_cap]

theorem lowestNonce_le_recommended (draft : Draft) (account : Account) (snapshot : Snapshot) :
    snapshot.lowestNonce account ≤ (resolve draft account snapshot).recommended.toNat := by
  have hword := (resolve draft account snapshot).floor.toNat_lt_size
  have hfree : snapshot.lowestNonce account ≤ snapshot.freeNonce account := by
    unfold Snapshot.lowestNonce Snapshot.freeNonce
    split
    · exact (SafeNonces.firstFree_le_iff.1 le_rfl).1
    · exact le_rfl
  -- The first free nonce may be no word. The lowest one is, so the cap does not go below it.
  rw [toNat_floor] at hword
  rw [toNat_recommended]
  omega

/-! ### The signed nonce -/

theorem signed_ofSafe (draft : Draft) (safe : SafeNonces) :
    (ofSafe draft safe).signed =
      if draft.nonceEdited then draft.nonce.getD safe.next
      else safe.resolve draft.nonce safe.next := by
  unfold ofSafe
  cases draft.nonce <;> cases draft.nonceEdited <;> rfl

theorem signed_ofChain (draft : Draft) (onChain : UInt64) (queued : Option UInt64) :
    (ofChain draft onChain queued).signed =
      if draft.keepReason?.isSome then draft.nonce.getD (Nonce.next onChain queued)
      else Nonce.next onChain queued := by
  unfold ofChain Nonce.recommend
  cases draft.keepReason? <;> rfl

theorem signed_of_stands (ho : draft.nonce = some own) (h : draft.Stands account snapshot own) :
    (resolve draft account snapshot).signed = own := by
  cases hs : account.safeNonces? snapshot with
  | some safe =>
    rw [resolve_of_some hs, signed_ofSafe, ho, safe.resolve_some]
    cases h with
    | edited byHand => rw [if_pos byHand, Option.getD_some]
    | unspent known free =>
      obtain rfl := Option.some.inj (known.symm.trans hs)
      rw [if_pos free, Option.getD_some, ite_self]
    | replaces ordinary => simp [ordinary] at hs
    | selfTransfer ordinary => simp [ordinary] at hs
  | none =>
    have hkeep : draft.keepReason?.isSome = true := by
      rw [Draft.isSome_keepReason?_iff, ho]
      cases h with
      | edited byHand => exact .inr (.inr byHand)
      | unspent known => simp [known] at hs
      | replaces _ kind => exact .inl kind
      | selfTransfer _ back => exact .inr (.inl ⟨rfl, back⟩)
    rw [resolve_of_none hs, signed_ofChain, if_pos hkeep, ho, Option.getD_some]

theorem signed_of_not_stands
    (h : ∀ own, draft.nonce = some own → ¬draft.Stands account snapshot own) :
    (resolve draft account snapshot).signed = (resolve draft account snapshot).recommended := by
  cases hs : account.safeNonces? snapshot with
  | some safe =>
    rw [resolve_of_some hs, signed_ofSafe]
    show _ = safe.next
    cases ho : draft.nonce with
    | none => exact ite_self _
    | some own =>
      have hedited : ¬draft.nonceEdited = true := fun he => h own ho (.edited he)
      have hspent : ¬safe.current ≤ own := fun hle => h own ho (.unspent hs hle)
      rw [if_neg hedited, safe.resolve_some, if_neg hspent]
  | none =>
    rw [resolve_of_none hs, signed_ofChain]
    show _ = Nonce.next _ _
    cases ho : draft.nonce with
    | none => exact ite_self _
    | some own =>
      have hkeep : ¬draft.keepReason?.isSome = true := by
        rw [Draft.isSome_keepReason?_iff]
        rintro (hk | ⟨-, hr⟩ | he)
        · exact h own ho (.replaces hs hk)
        · exact h own ho (.selfTransfer hs hr)
        · exact h own ho (.edited he)
      rw [if_neg hkeep]

end SignedNonce

/-! ### Nonces that are too low -/

/-- The draft has brought a nonce that is too low, and it is kept because it was set by hand or,
where the account goes by the nonces of the chain, because the draft goes back to its own sender. -/
structure Draft.KeepsLow (draft : Draft) (account : Account) (snapshot : Snapshot) (own : UInt64) :
    Prop where
  standard : draft.kind = .standard
  carried : draft.nonce = some own
  low : own.toNat < snapshot.lowestNonce account
  kept : draft.nonceEdited = true ∨
    account.safeNonces? snapshot = none ∧ draft.recipient = some draft.sender

theorem Draft.KeepsLow.stands (h : draft.KeepsLow account snapshot own) :
    draft.Stands account snapshot own := by
  rcases h.kept with byHand | ⟨ordinary, back⟩
  · exact .edited byHand
  · exact .selfTransfer ordinary back

theorem Draft.Stands.keepsLow (h : draft.Stands account snapshot own)
    (standard : draft.kind = .standard) (carried : draft.nonce = some own)
    (low : own.toNat < snapshot.lowestNonce account) : draft.KeepsLow account snapshot own := by
  refine ⟨standard, carried, low, ?_⟩
  cases h with
  | edited byHand => exact .inl byHand
  | unspent known free =>
    rw [Snapshot.lowestNonce, known, ← UInt64.lt_iff_toNat_lt] at low
    exact absurd free (UInt64.not_le.2 low)
  | replaces _ kind => simp [standard, DraftKind.replaces] at kind
  | selfTransfer ordinary back => exact .inr ⟨ordinary, back⟩

/-- The recommended nonce is never too low, so a signed one that is has been kept. -/
theorem SignedNonce.signed_lt_iff (standard : draft.kind = .standard) :
    (resolve draft account snapshot).signed.toNat < snapshot.lowestNonce account ↔
      ∃ own, draft.KeepsLow account snapshot own := by
  constructor
  · intro hlow
    by_cases h : ∃ own, draft.nonce = some own ∧ draft.Stands account snapshot own
    · obtain ⟨own, carried, stands⟩ := h
      rw [signed_of_stands carried stands] at hlow
      exact ⟨own, stands.keepsLow standard carried hlow⟩
    · have hrecommended := lowestNonce_le_recommended draft account snapshot
      rw [signed_of_not_stands fun own ho hs => h ⟨own, ho, hs⟩] at hlow
      exact absurd hrecommended (Nat.not_le.2 hlow)
  · rintro ⟨own, h⟩
    rw [signed_of_stands h.carried h.stands]
    exact h.low

namespace Session

/-- What a session with a plan derives from the nonces of its snapshot. -/
theorem resolved_of_plan (draft : Draft) (account : Account) (policy : GasPolicy)
    (commands : List Command) {plan : GasPlan} :
    let s := (start draft account policy).runAll commands
    s.plan = some plan → ∃ snapshot, s.snapshot = some snapshot ∧
      let nonce := SignedNonce.resolve s.draft account snapshot
      s.nonce = some nonce.signed ∧ plan.nonce = nonce.recommended ∧
      (.nonceLow ∈ s.checks.map (·.code) ↔ s.draft.kind.replaces = false ∧
        nonce.signed.toNat < snapshot.lowestNonce account) := by
  intro s hp
  have hfresh : Fresh s := fresh_runAll draft account policy commands
  obtain ⟨ha, -⟩ : s.account = account ∧ s.policy = policy :=
    signer_runAll draft account policy commands
  obtain ⟨snapshot, level, limit, hs, hplanned⟩ := hfresh.planned_of_plan hp
  refine ⟨snapshot, hs, ?_, ?_, ?_⟩
  · have hnonce : s.nonce = _ := nonce_eq_plannedNonce? draft account policy commands
    rw [hnonce, History.plannedNonce?, plannedNonce?, hp, hs, ha]
    rfl
  · rw [hplanned.solved, ha]
    rfl
  · rw [hplanned.checks, CheckRequest.mem_codes_run, ha, ← SignedNonce.toNat_floor s.draft]
    rfl

/-- While a session has a plan, its recommended nonce is not too low, and its nonce is found to be
too low exactly if the draft keeps such a nonce, which is then the one that is signed. -/
theorem nonceLow_runAll (draft : Draft) (account : Account) (policy : GasPolicy)
    (commands : List Command) (plan : GasPlan) :
    let s := (start draft account policy).runAll commands
    s.plan = some plan → ∃ snapshot, s.snapshot = some snapshot ∧
      snapshot.lowestNonce account ≤ plan.nonce.toNat ∧
      (.nonceLow ∈ s.checks.map (·.code) ↔ ∃ own, s.draft.KeepsLow account snapshot own) ∧
      ∀ own, s.draft.KeepsLow account snapshot own → s.nonce = some own := by
  intro s hp
  obtain ⟨snapshot, hs, hsigned, hrecommended, hlow⟩ :=
    resolved_of_plan draft account policy commands hp
  refine ⟨snapshot, hs, ?_, ?_, ?_⟩
  · rw [hrecommended]
    exact SignedNonce.lowestNonce_le_recommended _ _ _
  · rw [hlow]
    constructor
    · rintro ⟨hk, hlt⟩
      exact (SignedNonce.signed_lt_iff (DraftKind.replaces_eq_false_iff.1 hk)).1 hlt
    · rintro ⟨own, h⟩
      exact ⟨DraftKind.replaces_eq_false_iff.2 h.standard,
        (SignedNonce.signed_lt_iff h.standard).2 ⟨own, h⟩⟩
  · intro own h
    rw [hsigned, SignedNonce.signed_of_stands h.carried h.stands]

/-- A nonce set by hand below the nonce of the chain is signed, and found to be too low. -/
theorem nonceLow_setNonce :
    let s := sample.runAll
      [.applySnapshot (sampleSnapshot 5 [⟨.normal, .cap 20, none, 0⟩]) none, .setNonce 3]
    s.plan.isSome = true ∧ s.nonce = some 3 ∧ .nonceLow ∈ s.checks.map (·.code) := by
  intro s
  have hplan : s.plan.isSome = true := by decide +kernel
  obtain ⟨plan, hp⟩ := Option.isSome_iff_exists.1 hplan
  obtain ⟨snapshot, hs, -, hlow, hsigned⟩ :=
    nonceLow_runAll sampleDraft ⟨true, false⟩ .standard _ plan hp
  have hloaded : s.snapshot = some (sampleSnapshot 5 [⟨.normal, .cap 20, none, 0⟩]) := by
    decide +kernel
  obtain rfl := Option.some.inj (hloaded.symm.trans hs)
  have hkeeps : s.draft.KeepsLow ⟨true, false⟩ (sampleSnapshot 5 [⟨.normal, .cap 20, none, 0⟩]) 3 :=
    ⟨by decide +kernel, by decide +kernel, by decide +kernel, .inl (by decide +kernel)⟩
  exact ⟨hplan, hsigned 3 hkeeps, hlow.2 ⟨3, hkeeps⟩⟩

end Session

/-! ### Drafts that replace a transaction -/

theorem Draft.stands_iff_of_replaces (hk : draft.kind.replaces = true) :
    draft.Stands account snapshot own ↔ draft.nonceEdited = true ∨
      ∀ safe, account.safeNonces? snapshot = some safe → safe.current ≤ own := by
  constructor
  · intro h
    cases h with
    | edited byHand => exact .inl byHand
    | unspent known free =>
      refine .inr fun safe hs => ?_
      obtain rfl := Option.some.inj (known.symm.trans hs)
      exact free
    | replaces ordinary | selfTransfer ordinary =>
      refine .inr fun safe hs => ?_
      rw [ordinary] at hs
      cases hs
  · rintro (byHand | hfree)
    · exact .edited byHand
    · cases hs : account.safeNonces? snapshot with
      | some safe => exact .unspent hs (hfree safe hs)
      | none => exact .replaces hs hk

/-- The nonce of a replacement does not stand only if the contract has spent it. -/
theorem Draft.lt_lowestNonce_of_not_stands (hk : draft.kind.replaces = true)
    (h : ¬draft.Stands account snapshot own) : own.toNat < snapshot.lowestNonce account := by
  simp only [stands_iff_of_replaces hk, not_or, not_forall, exists_prop] at h
  obtain ⟨-, safe, hs, hspent⟩ := h
  rw [Snapshot.lowestNonce, hs]
  exact UInt64.lt_iff_toNat_lt.1 (UInt64.not_le.1 hspent)

namespace Session

/-- While a session has a plan for a draft that replaces a transaction, its nonce is the own one of
the draft exactly if there is one that was set by hand or that no contract has spent. Otherwise it
is the first that is free. It is never found to be too low. -/
theorem replacement_nonce_runAll (draft : Draft) (account : Account) (policy : GasPolicy)
    (commands : List Command) (plan : GasPlan) :
    let s := (start draft account policy).runAll commands
    s.plan = some plan → s.draft.kind.replaces = true → ∃ snapshot, s.snapshot = some snapshot ∧
      (s.nonce = s.draft.nonce ↔ ∃ own, s.draft.nonce = some own ∧ (s.draft.nonceEdited = true ∨
        ∀ safe, account.safeNonces? snapshot = some safe → safe.current ≤ own)) ∧
      (s.nonce ≠ s.draft.nonce → s.nonce = some (Word.cap (snapshot.freeNonce account))) ∧
      .nonceLow ∉ s.checks.map (·.code) := by
  intro s hp hk
  obtain ⟨snapshot, hs, hsigned, -, hlow⟩ := resolved_of_plan draft account policy commands hp
  have hstands : ∀ own, s.draft.Stands account snapshot own ↔ s.draft.nonceEdited = true ∨
      ∀ safe, account.safeNonces? snapshot = some safe → safe.current ≤ own :=
    fun _ => Draft.stands_iff_of_replaces hk
  have hunchecked : .nonceLow ∉ s.checks.map (·.code) := by
    rw [hlow, hk]
    exact fun h => Bool.noConfusion h.1
  refine ⟨snapshot, hs, ?_⟩
  simp only [← hstands]
  by_cases h : ∃ own, s.draft.nonce = some own ∧ s.draft.Stands account snapshot own
  · obtain ⟨own, carried, stands⟩ := h
    have hown : s.nonce = s.draft.nonce := by
      rw [hsigned, carried, SignedNonce.signed_of_stands carried stands]
    exact ⟨iff_of_true hown ⟨own, carried, stands⟩, absurd hown, hunchecked⟩
  · have hfree : s.nonce = some (SignedNonce.resolve s.draft account snapshot).recommended := by
      rw [hsigned, SignedNonce.signed_of_not_stands fun own ho hs => h ⟨own, ho, hs⟩]
    have hother : s.nonce ≠ s.draft.nonce := by
      -- A nonce of the draft that does not stand is spent, and the recommended one is not.
      intro heq
      have carried := heq.symm.trans hfree
      have hspent := Draft.lt_lowestNonce_of_not_stands hk fun stands => h ⟨_, carried, stands⟩
      exact absurd (SignedNonce.lowestNonce_le_recommended _ _ _) (Nat.not_le.2 hspent)
    refine ⟨iff_of_false hother h, fun _ => ?_, hunchecked⟩
    rw [hfree, SignedNonce.recommended_eq]

/-- The sample draft with another kind and nonce. -/
def sampleReplacement (kind : DraftKind) (nonce : Option UInt64) : Draft :=
  { sampleDraft with kind, nonce }

/-- The state of a chain whose next nonce is 5, and of the contract of a multisig. -/
def safeSnapshot (draft : Draft) (safe : Option SafeNonces) : Snapshot :=
  { sampleSnapshot 5 [⟨.normal, .cap 20, none, 0⟩] with fingerprint := draft.fingerprint, safe }

/-- A proposal that the contract has not executed yet is replaced. -/
theorem replacement_nonce_proposed :
    let draft := sampleReplacement .speedUp (some 8)
    let snapshot := safeSnapshot draft (some ⟨7, [9, 8]⟩)
    let s := (start draft ⟨true, true⟩ .standard).runAll [.applySnapshot snapshot none]
    s.plan.isSome = true ∧ s.draft.kind.replaces = true ∧ s.nonce = some 8 ∧
      .nonceLow ∉ s.checks.map (·.code) := by
  intro draft snapshot
  have key := replacement_nonce_runAll draft ⟨true, true⟩ .standard [.applySnapshot snapshot none]
  generalize hrun : (start draft ⟨true, true⟩ .standard).runAll [.applySnapshot snapshot none] = s
    at key ⊢
  have hplan : s.plan.isSome = true := by rw [← hrun]; decide +kernel
  have hkind : s.draft.kind.replaces = true := by rw [← hrun]; decide +kernel
  have hcarried : s.draft.nonce = some 8 := by rw [← hrun]; decide +kernel
  have hloaded : s.snapshot = some snapshot := by rw [← hrun]; decide +kernel
  obtain ⟨plan, hp⟩ := Option.isSome_iff_exists.1 hplan
  obtain ⟨loaded, hs, hown, -, hlow⟩ := key plan hp hkind
  obtain rfl := Option.some.inj (hloaded.symm.trans hs)
  have hfree : ∀ safe, Account.safeNonces? ⟨true, true⟩ snapshot = some safe →
      safe.current ≤ 8 := by
    rintro _ ⟨⟩
    decide
  exact ⟨hplan, hkind, (hown.2 ⟨8, hcarried, .inr hfree⟩).trans hcarried, hlow⟩

/-- Neither a speed-up of a transaction that the contract has executed nor a cancellation without a
nonce is signed with the nonce of the draft. -/
theorem replacement_nonce_recommended :
    let speedUp := sampleReplacement .speedUp (some 6)
    let spent := (start speedUp ⟨true, true⟩ .standard).runAll
      [.applySnapshot (safeSnapshot speedUp (some ⟨7, [9, 8]⟩)) none]
    let cancel := sampleReplacement .cancel none
    let unnamed := (start cancel ⟨true, false⟩ .standard).runAll
      [.applySnapshot (safeSnapshot cancel none) none]
    (spent.plan.isSome = true ∧ spent.draft.kind = .speedUp ∧ spent.draft.nonce = some 6 ∧
        spent.nonce = some 10) ∧
      unnamed.plan.isSome = true ∧ unnamed.draft.kind = .cancel ∧ unnamed.draft.nonce = none ∧
        unnamed.nonce = some 5 := by
  decide +kernel

end Session

end Countersign
