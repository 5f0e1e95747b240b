import Countersign.Proofs.Session.Fresh

/-! The nonce that a session reports. It is the one of the latest plan since the draft was
installed, whether or not that plan is still there: a snapshot that offers no fee level to start on
takes the plan away and leaves the nonce. -/

namespace Countersign.Session

/-- The nonce that a session's plan is for, if it has one. -/
def plannedNonce? (s : Session) : Option UInt64 :=
  s.plan.bind fun _ =>
    s.snapshot.map fun snapshot => (SignedNonce.resolve s.draft s.account snapshot).signed

/-- The nonce that is reported is the one that the plan was made for and that the checks saw. -/
structure NonceCurrent (s : Session) : Prop where
  isSome_iff : s.nonce.isSome = true ↔ s.plan.isSome = true
  resolved : ∀ nonce, s.nonce = some nonce → ∃ snapshot level,
    s.snapshot = some snapshot ∧ s.feeLevel = some level ∧
      nonce = (SignedNonce.resolve s.draft s.account snapshot).signed ∧
      nonce = (s.draft.planRequest s.account snapshot level).nonce ∧
      ∀ plan limit, nonce = (s.draft.checkRequest s.account snapshot level plan limit).nonce

namespace History

/-- The nonce of the latest plan since the draft was installed, up to the session `last`. -/
def plannedNonce? (h : History) (last : Session) : Option UInt64 :=
  last.plannedNonce?.or (h.sinceDraft.findSome? fun t => t.before.plannedNonce?)

variable {s s' : Session} {c : Command} {h : History}

theorem plannedNonce?_cons (hc : c.draft? = none) :
    plannedNonce? (⟨s, c⟩ :: h) s' = s'.plannedNonce?.or (h.plannedNonce? s) := by
  rw [plannedNonce?, sinceDraft_cons hc, List.findSome?_cons, plannedNonce?]
  cases s.plannedNonce? <;> rfl

theorem plannedNonce?_or (h : History) (s : Session) :
    s.plannedNonce?.or (h.plannedNonce? s) = h.plannedNonce? s := by
  rw [plannedNonce?, ← Option.or_assoc, Option.or_self]

end History

variable {s s' : Session} {c : Command}

theorem nonce_refresh (s : Session) : s.refresh.nonce = s.refresh.plannedNonce?.or s.nonce := by
  unfold refresh
  split
  · next hs _ => simp [plannedNonce?, hs]
  · simp [plannedNonce?]

/-- A request that does not replace the draft changes the nonce only by making a plan. -/
theorem nonce_of_takes (ht : s.Takes c s') (hc : c.draft? = none)
    (h : s.nonce = s.plannedNonce?.or s.nonce) : s'.nonce = s'.plannedNonce?.or s.nonce := by
  cases ht with
  | replaceDraft => cases hc
  | finalize | acknowledge | acknowledgeAll | undo | applyRules | setRuleEnabled => exact h
  | applySnapshot | selectFee | setGasLimit | setNonce => exact nonce_refresh _

theorem nonce_eq_plannedNonce? (draft : Draft) (account : Account) (policy : GasPolicy)
    (commands : List Command) :
    ((start draft account policy).runAll commands).nonce =
      ((start draft account policy).history commands).plannedNonce?
        ((start draft account policy).runAll commands) := by
  refine draft_induction (motive := fun past s => s.nonce = History.plannedNonce? past s) rfl ?_ ?_
    ?_ commands
  · intro past s c _ hc ih
    rw [History.plannedNonce?_cons hc, History.plannedNonce?_or, ih]
  · intro past s d _
    rfl
  · intro past s c s' _ hc ht ih
    have hold : s.nonce = s.plannedNonce?.or s.nonce := by rw [ih, History.plannedNonce?_or]
    rw [History.plannedNonce?_cons hc, ← ih, nonce_of_takes ht hc hold]

/-- A session that is fresh has a plan only with a snapshot and a fee level. -/
theorem Fresh.loaded_of_plan (h : Fresh s) (hp : s.plan.isSome = true) :
    ∃ snapshot level, s.snapshot = some snapshot ∧ s.feeLevel = some level := by
  cases hs : s.snapshot with
  | none => simp [(h.unplanned (.inl hs)).1] at hp
  | some snapshot =>
    cases hl : s.feeLevel with
    | none => simp [(h.unplanned (.inr hl)).1] at hp
    | some level => exact ⟨snapshot, level, rfl, rfl⟩

theorem Fresh.planned_of_plan (h : Fresh s) {plan : GasPlan} (hp : s.plan = some plan) :
    ∃ snapshot level limit, s.snapshot = some snapshot ∧ s.Planned snapshot level plan limit := by
  obtain ⟨snapshot, level, hs, hl⟩ := h.loaded_of_plan (by rw [hp]; rfl)
  obtain ⟨stored, limit, hplanned⟩ := h.planned snapshot level hs hl
  obtain rfl : plan = stored := Option.some.inj (hp.symm.trans hplanned.stored)
  exact ⟨snapshot, level, limit, hs, hplanned⟩

theorem Fresh.plannedNonce?_eq_none_iff (h : Fresh s) : s.plannedNonce? = none ↔ s.plan = none := by
  cases hp : s.plan with
  | none => simp [plannedNonce?, hp]
  | some plan =>
    obtain ⟨snapshot, -, hs, -⟩ := h.loaded_of_plan (by rw [hp]; rfl)
    simp [plannedNonce?, hp, hs]

/-- The nonce is current as soon as it is the one of the plan. -/
theorem Fresh.nonceCurrent_iff (h : Fresh s) : NonceCurrent s ↔ s.nonce = s.plannedNonce? := by
  constructor
  · intro hn
    cases hp : s.plan with
    | none =>
      have hnone : s.nonce = none := by
        have := hn.isSome_iff
        rw [hp] at this
        simpa using this
      rw [hnone, plannedNonce?, hp]
      rfl
    | some plan =>
      obtain ⟨nonce, he⟩ := Option.isSome_iff_exists.1 (hn.isSome_iff.2 (by rw [hp]; rfl))
      obtain ⟨snapshot, -, hs, -, hnonce, -⟩ := hn.resolved nonce he
      simp [he, plannedNonce?, hp, hs, hnonce]
  · intro hn
    constructor
    · rw [hn, Option.isSome_iff_ne_none, Option.isSome_iff_ne_none, ne_eq, ne_eq,
        h.plannedNonce?_eq_none_iff]
    · intro nonce he
      have hp : s.plan.isSome = true := by
        rw [Option.isSome_iff_ne_none, ne_eq, ← h.plannedNonce?_eq_none_iff, ← hn, he]
        simp
      obtain ⟨snapshot, level, hs, hl⟩ := h.loaded_of_plan hp
      obtain ⟨plan, hplan⟩ := Option.isSome_iff_exists.1 hp
      have hresolved : nonce = (SignedNonce.resolve s.draft s.account snapshot).signed := by
        rw [he, plannedNonce?, hplan, hs] at hn
        simpa using hn
      exact ⟨snapshot, level, hs, hl, hresolved, hresolved, fun _ _ => hresolved⟩

/-- After every run the nonce is the one of the latest plan since the draft was installed. It is
current exactly if the session has a plan or has had none for the draft. -/
theorem nonce_runAll (draft : Draft) (account : Account) (policy : GasPolicy)
    (commands : List Command) :
    let first := start draft account policy
    let s := first.runAll commands
    let h := first.history commands
    s.nonce = h.plannedNonce? s ∧
      (NonceCurrent s ↔ s.plan.isSome = true ∨ ∀ t ∈ h.sinceDraft, t.before.plan = none) := by
  intro first s h
  have hfresh : Fresh s := fresh_runAll draft account policy commands
  have hnonce : s.nonce = h.plannedNonce? s := nonce_eq_plannedNonce? draft account policy commands
  refine ⟨hnonce, ?_⟩
  have hbefore : ∀ t ∈ h.sinceDraft, t.before.plannedNonce? = none ↔ t.before.plan = none :=
    fun t ht => Fresh.plannedNonce?_eq_none_iff
      (before_of_mem_history (fresh_runAll draft account policy) commands t
        ((List.takeWhile_sublist _).mem ht))
  rw [hfresh.nonceCurrent_iff, hnonce, History.plannedNonce?]
  cases hp : s.plannedNonce? with
  | some nonce =>
    have hplan : s.plan ≠ none := fun hn => by
      rw [hfresh.plannedNonce?_eq_none_iff.2 hn] at hp
      cases hp
    simp [Option.isSome_iff_ne_none, hplan]
  | none =>
    have hplan : s.plan = none := hfresh.plannedNonce?_eq_none_iff.1 hp
    simp only [Option.none_or, List.findSome?_eq_none_iff, hplan, Option.isSome_none,
      Bool.false_eq_true, false_or]
    exact forall₂_congr hbefore

/-- The state of a chain with the given next nonce and fee levels. -/
def sampleSnapshot (onChainNonce : UInt64) (feeLevels : List FeeLevel) : Snapshot where
  fingerprint := sampleDraft.fingerprint
  estimate := ⟨21000, 21000, true, .declared⟩
  onChainNonce := onChainNonce
  queuedNonce := none
  balance := .cap 1000000000000000000
  pending := []
  blockLimit := none
  baseFee := none
  feeLevels := feeLevels
  safe := none

/-- A snapshot without fee levels takes the plan away. The nonce of the plan stays, although the
chain has moved on and another one is set by hand. -/
theorem nonce_outlives_plan :
    let s := sample.runAll
      [.applySnapshot (sampleSnapshot 5 [⟨.normal, .cap 20, none, 0⟩]) none,
        .applySnapshot (sampleSnapshot 7 []) none,
        .setNonce 9]
    s.nonce = some 5 ∧ s.plan = none ∧ ¬ NonceCurrent s := by
  intro s
  have hnonce : s.nonce = some 5 := by decide +kernel
  have hplan : s.plan = none := by decide +kernel
  refine ⟨hnonce, hplan, fun h => ?_⟩
  have := h.isSome_iff
  rw [hnonce, hplan] at this
  simp at this

end Countersign.Session
