import Countersign.Proofs.Session.Run

/-! Requests to a session that is changed in place. Every request is written out as the tests and
assignments that it consists of, one field at a time, and what is assigned before a refusal stays
assigned. Main statement: `on_ofCommand`, by which this is no other session than the one that
requests give anew. -/

namespace Countersign.Session

/-- A piece of work on a session that is there only once. -/
abbrev InPlace (α : Type) := ExceptT SessionError (StateM Session) α

namespace InPlace

/-- The result of the work, and what it leaves of the session. -/
def on {α : Type} (work : InPlace α) (s : Session) : Except SessionError α × Session :=
  StateT.run (ExceptT.run work) s

def ensureCurrent (fingerprint : Fingerprint) : InPlace Unit := do
  let s ← get
  if fingerprint = s.fingerprint then return ()
  else throw (.stale s.fingerprint fingerprint)

/-- Derives the plan and the checks anew. The tally is the first field to change. -/
def refresh : InPlace Unit := do
  let s ← get
  match s.snapshot, s.feeLevel with
  | some snapshot, some level =>
    let plan := (s.draft.planRequest s.account snapshot level).plan s.policy
    let limit := s.gasLimitOverride.getD plan.limit
    let checks := (s.draft.checkRequest s.account snapshot level plan limit).run s.policy
    modify fun s => { s with tally := s.tally.record checks }
    modify fun s => { s with nonce := some (SignedNonce.resolve s.draft s.account snapshot).signed }
    modify fun s => { s with plan := some plan }
    modify fun s => { s with checks }
  | _, _ =>
    modify fun s => { s with plan := none }
    modify fun s => { s with checks := [] }

def applyRules (fingerprint : Fingerprint) (catalog : RuleCatalog) (facts : Facts) :
    InPlace Unit := do
  ensureCurrent fingerprint
  modify fun s => { s with outcomes := catalog.evaluate facts }
  modify fun s => { s with catalog := some catalog }
  modify fun s => { s with facts }

def applySnapshot (snapshot : Snapshot) (last : Option LastChoice) : InPlace Unit := do
  ensureCurrent snapshot.fingerprint
  modify fun s =>
    { s with feeLevel := FeeLevel.start? snapshot.feeLevels last s.draft.prefersCustomFee }
  modify fun s => { s with snapshot := some snapshot }
  refresh

def acknowledge (id : String) (confirmed : Bool) : InPlace Bool := do
  let s ← get
  match Acknowledged.refusal? s.enabledOutcomes id confirmed with
  | some e => throw (.acknowledge e)
  | none =>
    modify fun s => { s with acknowledged := NameSet.add s.acknowledged id }
    return !s.acknowledged.contains id

/-- Acknowledges warnings and dangers one after the other, and lists the new ones. -/
def acknowledgeEach : List Outcome → InPlace (List String)
  | [] => return []
  | o :: os => do
    let s ← get
    if Acknowledged.takesAll o && !s.acknowledged.contains o.ruleId then
      modify fun s => { s with acknowledged := NameSet.add s.acknowledged o.ruleId }
      let added ← acknowledgeEach os
      return o.ruleId :: added
    else acknowledgeEach os

def acknowledgeAll : InPlace (List String) := do
  let s ← get
  acknowledgeEach s.enabledOutcomes

def undo (id : String) : InPlace Bool := do
  let s ← get
  modify fun s => { s with acknowledged := s.acknowledged.erase id }
  return s.acknowledged.contains id

def setRuleEnabled (id : String) (enabled : Bool) : InPlace Unit := do
  let s ← get
  match s.catalog with
  | none => throw .rulesNotLoaded
  | some catalog =>
    match catalog.withEnabled? id enabled with
    | none => throw (.unknownRule id)
    | some updated =>
      modify fun s => { s with acknowledged := s.acknowledged.erase id }
      modify fun s => { s with outcomes := updated.evaluate s.facts }
      modify fun s => { s with catalog := some updated }

def selectFee (level : FeeLevel) : InPlace Unit := do
  modify fun s => { s with feeLevel := some level }
  refresh

def setGasLimit (limit : UInt64) : InPlace Unit := do
  modify fun s => { s with gasLimitOverride := some limit }
  refresh

def setNonce (nonce : UInt64) : InPlace Unit := do
  modify fun s => { s with draft := { s.draft with nonce := some nonce } }
  modify fun s => { s with draft := { s.draft with nonceEdited := true } }
  refresh

def ofCommand : Command → InPlace Reply
  | .replaceDraft draft => do
    modify fun s => start draft s.account s.policy
    return .done
  | .finalize => do
    modify fun s => { s with acknowledged := .empty }
    return .done
  | .applyRules fingerprint catalog facts => do
    applyRules fingerprint catalog facts
    return .done
  | .applySnapshot snapshot last => do
    applySnapshot snapshot last
    return .done
  | .acknowledge id confirmed => do
    let added ← acknowledge id confirmed
    return .flag added
  | .acknowledgeAll => do
    let added ← acknowledgeAll
    return .ids added
  | .undo id => do
    let found ← undo id
    return .flag found
  | .setRuleEnabled id enabled => do
    setRuleEnabled id enabled
    return .done
  | .selectFee level => do
    selectFee level
    return .done
  | .setGasLimit limit => do
    setGasLimit limit
    return .done
  | .setNonce nonce => do
    setNonce nonce
    return .done

/-! ### One step after the other -/

section

variable {α β : Type} (s : Session)

theorem on_get : (get : InPlace Session).on s = (.ok s, s) := rfl

theorem on_modify (f : Session → Session) : (modify f : InPlace Unit).on s = (.ok (), f s) := rfl

/-- What comes next goes on with the session as it is left. Nothing comes after a refusal, and what
was assigned before it stays. -/
theorem on_bind (work : InPlace α) (next : α → InPlace β) :
    (work >>= next).on s =
      match work.on s with
      | (.ok a, s') => (next a).on s'
      | (.error e, s') => (.error e, s') := by
  unfold on ExceptT.run StateT.run
  simp only [bind, ExceptT.bind, ExceptT.mk, StateT.bind, ExceptT.bindCont]
  cases work s with
  | mk result s' => cases result <;> rfl

theorem on_ensureCurrent (fingerprint : Fingerprint) :
    (ensureCurrent fingerprint).on s =
      if fingerprint = s.fingerprint then (.ok (), s)
      else (.error (.stale s.fingerprint fingerprint), s) := by
  simp only [ensureCurrent, on_bind, on_get]
  split <;> rfl

theorem on_refresh : refresh.on s = (.ok (), s.refresh) := by
  simp only [refresh, on_bind, on_get]
  cases hs : s.snapshot with
  | none =>
    rw [refresh_of_not_loaded (.inl hs)]
    rfl
  | some snapshot =>
    cases hl : s.feeLevel with
    | none =>
      rw [refresh_of_not_loaded (.inr hl)]
      rfl
    | some level =>
      rw [refresh_of_loaded hs hl]
      rfl

theorem on_acknowledgeEach (outcomes : List Outcome) :
    (acknowledgeEach outcomes).on s =
      (.ok (s.acknowledged.acknowledgeAll outcomes).1,
        { s with acknowledged := (s.acknowledged.acknowledgeAll outcomes).2 }) := by
  induction outcomes generalizing s with
  | nil => rfl
  | cons o os ih =>
    simp only [acknowledgeEach, Acknowledged.acknowledgeAll, on_bind, on_get]
    split
    · simp only [on_bind, on_modify, ih]
      rfl
    · exact ih s

end

end InPlace

/-- The reply of a request, with a refusal as an error. -/
def Reply.result : Reply → Except SessionError Reply
  | refused e => .error e
  | reply => .ok reply

open InPlace in
/-- A session that is changed in place ends up as the one that a request gives anew, also where
the request is refused. -/
theorem on_ofCommand (s : Session) (c : Command) :
    (InPlace.ofCommand c).on s = ((s.perform c).1.result, (s.perform c).2) := by
  cases c with
  | replaceDraft | finalize | undo => rfl
  | applyRules fingerprint catalog facts =>
    simp only [ofCommand, InPlace.applyRules, on_bind, on_ensureCurrent, perform,
      Session.applyRules]
    by_cases h : fingerprint = s.fingerprint
    · rw [if_pos h, settle_ifCurrent_of_eq h]
      rfl
    · rw [if_neg h, settle_ifCurrent_of_ne h]
      rfl
  | applySnapshot snapshot last =>
    simp only [ofCommand, InPlace.applySnapshot, on_bind, on_ensureCurrent, perform,
      Session.applySnapshot]
    by_cases h : snapshot.fingerprint = s.fingerprint
    · rw [if_pos h, settle_ifCurrent_of_eq h]
      simp only [on_modify, on_refresh]
      rfl
    · rw [if_neg h, settle_ifCurrent_of_ne h]
      rfl
  | acknowledge id confirmed =>
    simp only [ofCommand, InPlace.acknowledge, on_bind, on_get, perform, Session.acknowledge,
      Acknowledged.acknowledge]
    cases Acknowledged.refusal? s.enabledOutcomes id confirmed <;> rfl
  | acknowledgeAll =>
    simp only [ofCommand, InPlace.acknowledgeAll, on_bind, on_get, on_acknowledgeEach]
    rfl
  | setRuleEnabled id enabled =>
    simp only [ofCommand, InPlace.setRuleEnabled, on_bind, on_get, perform, Session.setRuleEnabled]
    cases s.catalog with
    | none => rfl
    | some catalog =>
      dsimp only
      cases catalog.withEnabled? id enabled <;> rfl
  | selectFee | setGasLimit | setNonce =>
    simp only [ofCommand, InPlace.selectFee, InPlace.setGasLimit, InPlace.setNonce, on_bind,
      on_modify, on_refresh]
    rfl

end Countersign.Session
