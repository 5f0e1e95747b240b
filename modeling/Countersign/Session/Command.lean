import Countersign.Session.Basic

/-! Sessions driven by commands. A command that is refused leaves the session as it was. -/

namespace Countersign.Session

inductive Command where
  | replaceDraft (draft : Draft)
  | finalize
  | applyRules (fingerprint : Fingerprint) (catalog : RuleCatalog) (facts : Facts)
  | applySnapshot (snapshot : Snapshot) (last : Option LastChoice)
  | acknowledge (id : String) (confirmed : Bool)
  | acknowledgeAll
  | undo (id : String)
  | setRuleEnabled (id : String) (enabled : Bool)
  | selectFee (level : FeeLevel)
  | setGasLimit (limit : UInt64)
  | setNonce (nonce : UInt64)

inductive Reply where
  | done
  | flag (b : Bool)
  | ids (names : List String)
  | refused (e : SessionError)
deriving DecidableEq

/-- The reply and the next session for a request without a result of its own. -/
def settle (s : Session) : Except SessionError Session → Reply × Session
  | .ok next => (.done, next)
  | .error e => (.refused e, s)

def perform (s : Session) : Command → Reply × Session
  | .replaceDraft draft => (.done, s.replaceDraft draft)
  | .finalize => (.done, s.finalize)
  | .applyRules fingerprint catalog facts => s.settle (s.applyRules fingerprint catalog facts)
  | .applySnapshot snapshot last => s.settle (s.applySnapshot snapshot last)
  | .acknowledge id confirmed =>
    match s.acknowledge id confirmed with
    | .ok (added, next) => (.flag added, next)
    | .error e => (.refused e, s)
  | .acknowledgeAll => (.ids s.acknowledgeAll.1, s.acknowledgeAll.2)
  | .undo id => (.flag (s.undo id).1, (s.undo id).2)
  | .setRuleEnabled id enabled => s.settle (s.setRuleEnabled id enabled)
  | .selectFee level => (.done, s.selectFee level)
  | .setGasLimit limit => (.done, s.setGasLimit limit)
  | .setNonce nonce => (.done, s.setNonce nonce)

def runAll (s : Session) (commands : List Command) : Session :=
  commands.foldl (fun s c => (s.perform c).2) s

theorem settle_ifCurrent_of_eq {s : Session} {fingerprint : Fingerprint}
    (h : fingerprint = s.fingerprint) (next : Session) :
    s.settle (s.ifCurrent fingerprint next) = (.done, next) := by
  rw [ifCurrent, if_pos h]
  rfl

theorem settle_ifCurrent_of_ne {s : Session} {fingerprint : Fingerprint}
    (h : fingerprint ≠ s.fingerprint) (next : Session) :
    s.settle (s.ifCurrent fingerprint next) = (.refused (.stale s.fingerprint fingerprint), s) := by
  rw [ifCurrent, if_neg h]
  rfl

theorem perform_refused {s : Session} {c : Command} {e : SessionError}
    (h : (s.perform c).1 = .refused e) : (s.perform c).2 = s := by
  have settled : ∀ r, (s.settle r).1 = .refused e → (s.settle r).2 = s := by
    intro r
    cases r <;> simp [settle]
  cases c <;> simp only [perform] at h ⊢
  case applyRules => exact settled _ h
  case applySnapshot => exact settled _ h
  case setRuleEnabled => exact settled _ h
  case acknowledge =>
    split at h
    · cases h
    · rfl
  all_goals cases h

end Countersign.Session
