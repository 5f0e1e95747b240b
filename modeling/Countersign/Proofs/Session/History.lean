import Countersign.Proofs.Session.Run

/-! What the history of a run says about the draft at hand: which draft it is, and what has been
taken in for it since it was installed. After every run the session holds exactly that. -/

namespace Countersign.Session

/-- What a session has been given for its draft. -/
structure Given where
  draft : Draft
  catalog : Option RuleCatalog
  facts : Facts
  snapshot : Option Snapshot
  feeLevel : Option FeeLevel
  /-- A gas limit that is signed in place of the planned one. -/
  gasLimit : Option UInt64

def given (s : Session) : Given :=
  ⟨s.draft, s.catalog, s.facts, s.snapshot, s.feeLevel, s.gasLimitOverride⟩

@[simp] theorem given_refresh (s : Session) : s.refresh.given = s.given := by
  rw [refresh_eq]
  rfl

namespace Command

def draft? : Command → Option Draft
  | replaceDraft draft => some draft
  | _ => none

def nonce? : Command → Option UInt64
  | setNonce nonce => some nonce
  | _ => none

def facts? : Command → Option Facts
  | applyRules _ _ facts => some facts
  | _ => none

def snapshot? : Command → Option Snapshot
  | applySnapshot snapshot _ => some snapshot
  | _ => none

def gasLimit? : Command → Option UInt64
  | setGasLimit limit => some limit
  | _ => none

/-- The fee level that a request puts in place, if it changes the level. A snapshot that offers none
to start on takes the level away. -/
def feeLevel? (draft : Draft) : Command → Option (Option FeeLevel)
  | applySnapshot snapshot last =>
    some (FeeLevel.start? snapshot.feeLevels last draft.prefersCustomFee)
  | selectFee level => some (some level)
  | _ => none

/-- The catalog after a request. -/
def catalog? : Command → Option RuleCatalog → Option RuleCatalog
  | applyRules _ catalog _, _ => some catalog
  | setRuleEnabled id enabled, catalog => catalog.bind fun c => c.withEnabled? id enabled
  | _, catalog => catalog

end Command

/-- What a session has been given once a request is accepted that does not replace the draft. -/
def Given.after (g : Given) (c : Command) : Given where
  draft := c.nonce?.elim g.draft g.draft.withNonce
  catalog := c.catalog? g.catalog
  facts := c.facts?.getD g.facts
  snapshot := c.snapshot?.or g.snapshot
  feeLevel := (c.feeLevel? g.draft).getD g.feeLevel
  gasLimit := c.gasLimit?.or g.gasLimit

theorem given_of_takes {s s' : Session} {c : Command} (h : s.Takes c s') (hc : c.draft? = none) :
    s'.given = s.given.after c := by
  cases h with
  | replaceDraft draft => cases hc
  | finalize | applyRules | acknowledge | acknowledgeAll | undo => rfl
  | setRuleEnabled loaded known =>
    simp [given, Given.after, Command.catalog?, Command.nonce?, Command.facts?, Command.snapshot?,
      Command.feeLevel?, Command.gasLimit?, loaded, known]
  | applySnapshot | selectFee | setGasLimit | setNonce =>
    rw [given_refresh]
    rfl

/-! ### Runs by drafts -/

theorem Event.draft?_of_refused {s : Session} {c : Command} (hr : accepted ⟨s, c⟩ = false) :
    c.draft? = none := by
  cases c with
  | replaceDraft draft => cases hr
  | _ => rfl

/-- What holds at the start, and stays true when a request is refused, when the draft is replaced,
and when any other request is taken, holds after every run. -/
theorem draft_induction {first : Session} {motive : History → Session → Prop}
    (start : motive [] first)
    (refused : ∀ {past s c}, Event.accepted ⟨s, c⟩ = false → c.draft? = none → motive past s →
      motive (⟨s, c⟩ :: past) s)
    (replaced : ∀ {past s} draft, motive past s →
      motive (⟨s, .replaceDraft draft⟩ :: past) (s.replaceDraft draft))
    (taken : ∀ {past s c s'}, Event.accepted ⟨s, c⟩ = true → c.draft? = none → s.Takes c s' →
      motive past s → motive (⟨s, c⟩ :: past) s')
    (commands : List Command) : motive (first.history commands) (first.runAll commands) := by
  refine run_induction start (fun hr ih => refused hr (Event.draft?_of_refused hr) ih) ?_ commands
  intro past s c s' ha ht ih
  cases hc : c.draft? with
  | none => exact taken ha hc ht ih
  | some draft =>
    cases ht with
    | replaceDraft draft => exact replaced draft ih
    | _ => cases hc

/-! ### What a history says -/

namespace History

/-- The requests since the draft was installed. -/
def sinceDraft (h : History) : History := h.takeWhile fun t => t.command.draft?.isNone

/-- What the latest accepted request says that says anything, since the draft was installed. -/
def latest? {α : Type} (h : History) (read : Command → Option α) : Option α :=
  h.sinceDraft.findSome? fun t => if t.accepted then read t.command else none

/-- The draft that was installed last, as it was then. -/
def installed (h : History) (first : Draft) : Draft :=
  (h.findSome? fun t => t.command.draft?).getD first

/-- The draft with the nonce that was set for it last. -/
def draft (h : History) (first : Draft) : Draft :=
  (h.latest? Command.nonce?).elim (h.installed first) (h.installed first).withNonce

/-- The catalog that was applied last, with the rules switched on and off since. -/
def catalog? (h : History) : Option RuleCatalog :=
  h.sinceDraft.foldr (fun t c => if t.accepted then t.command.catalog? c else c) none

/-- What has been taken in for the draft since it was installed. -/
def given (h : History) (first : Draft) : Given where
  draft := h.draft first
  catalog := h.catalog?
  facts := (h.latest? Command.facts?).getD .empty
  snapshot := h.latest? Command.snapshot?
  feeLevel := (h.latest? (Command.feeLevel? (h.installed first))).join
  gasLimit := (h.latest? Command.gasLimit?).or (h.installed first).exactGasLimit

variable {s : Session} {c : Command} {h : History}

theorem sinceDraft_cons (hc : c.draft? = none) :
    sinceDraft (⟨s, c⟩ :: h) = ⟨s, c⟩ :: h.sinceDraft := by
  simp [sinceDraft, hc]

theorem installed_cons (hc : c.draft? = none) (first : Draft) :
    installed (⟨s, c⟩ :: h) first = h.installed first := by
  simp [installed, hc]

theorem latest?_cons {α : Type} (hc : c.draft? = none) (read : Command → Option α) :
    latest? (⟨s, c⟩ :: h) read =
      if Event.accepted ⟨s, c⟩ then (read c).or (h.latest? read) else h.latest? read := by
  rw [latest?, sinceDraft_cons hc, List.findSome?_cons]
  cases Event.accepted ⟨s, c⟩ with
  | false => rfl
  | true => simp only [if_true]; cases read c <;> rfl

theorem catalog?_cons (hc : c.draft? = none) :
    catalog? (⟨s, c⟩ :: h) =
      if Event.accepted ⟨s, c⟩ then c.catalog? h.catalog? else h.catalog? := by
  rw [catalog?, sinceDraft_cons hc, List.foldr_cons]
  rfl

theorem feeLevel?_draft (first : Draft) :
    c.feeLevel? (h.draft first) = c.feeLevel? (h.installed first) := by
  unfold draft
  cases h.latest? Command.nonce? <;> rfl

theorem given_cons_of_refused (hr : Event.accepted ⟨s, c⟩ = false) (first : Draft) :
    given (⟨s, c⟩ :: h) first = h.given first := by
  have hc := Event.draft?_of_refused hr
  simp [given, draft, installed_cons hc, latest?_cons hc, catalog?_cons hc, hr]

theorem given_cons_of_accepted (ha : Event.accepted ⟨s, c⟩ = true) (hc : c.draft? = none)
    (first : Draft) : given (⟨s, c⟩ :: h) first = (h.given first).after c := by
  have hl : c.feeLevel? (h.draft first) = _ := feeLevel?_draft first
  simp only [given, Given.after, hl, installed_cons hc, latest?_cons hc, catalog?_cons hc, ha,
    if_true, Option.or_assoc, Given.mk.injEq, true_and, and_true]
  refine ⟨?_, ?_, ?_⟩
  · simp only [draft, installed_cons hc, latest?_cons hc, ha, if_true]
    cases c.nonce? <;> cases h.latest? Command.nonce? <;> rfl
  · cases c.facts? <;> rfl
  · cases c.feeLevel? (h.installed first) <;> rfl

end History

/-- After every run a session holds what its history says. -/
theorem given_runAll (draft : Draft) (account : Account) (policy : GasPolicy)
    (commands : List Command) :
    ((start draft account policy).runAll commands).given =
      ((start draft account policy).history commands).given draft := by
  refine draft_induction (motive := fun past s => s.given = History.given past draft) rfl ?_ ?_ ?_
    commands
  · intro past s c hr _ ih
    rw [History.given_cons_of_refused hr, ih]
  · intro past s d _
    rfl
  · intro past s c s' ha hc ht ih
    rw [History.given_cons_of_accepted ha hc, given_of_takes ht hc, ih]

end Countersign.Session
