import Countersign.Session.Command
import Mathlib.Data.List.Induction

/-! Runs of a session. `Takes` says what each request does that is not refused. The history of a run
lists its requests, the latest first, with the sessions that they were made to, and what every
request preserves holds after every run. -/

namespace Countersign.Session

/-- `s.Takes c s'`: the request `c` is not refused by `s`, which is `s'` afterwards. -/
inductive Takes (s : Session) : Command → Session → Prop where
  | replaceDraft (draft : Draft) :
    Takes s (.replaceDraft draft) (start draft s.account s.policy)
  | finalize : Takes s .finalize { s with acknowledged := .empty }
  | applyRules (catalog : RuleCatalog) (facts : Facts) :
    Takes s (.applyRules s.fingerprint catalog facts)
      { s with outcomes := catalog.evaluate facts, catalog := some catalog, facts := facts }
  | applySnapshot {snapshot : Snapshot} (last : Option LastChoice)
      (current : snapshot.fingerprint = s.fingerprint) :
    Takes s (.applySnapshot snapshot last)
      { s with
        feeLevel := FeeLevel.start? snapshot.feeLevels last s.draft.prefersCustomFee
        snapshot := some snapshot }.refresh
  | acknowledge {id : String} {confirmed : Bool}
      (allowed : Acknowledged.refusal? s.enabledOutcomes id confirmed = none) :
    Takes s (.acknowledge id confirmed) { s with acknowledged := NameSet.add s.acknowledged id }
  | acknowledgeAll :
    Takes s .acknowledgeAll
      { s with acknowledged := (s.acknowledged.acknowledgeAll s.enabledOutcomes).2 }
  | undo (id : String) : Takes s (.undo id) { s with acknowledged := s.acknowledged.erase id }
  | setRuleEnabled {id : String} {enabled : Bool} {catalog updated : RuleCatalog}
      (loaded : s.catalog = some catalog) (known : catalog.withEnabled? id enabled = some updated) :
    Takes s (.setRuleEnabled id enabled)
      { s with
        acknowledged := s.acknowledged.erase id
        outcomes := updated.evaluate s.facts
        catalog := some updated }
  | selectFee (level : FeeLevel) :
    Takes s (.selectFee level) { s with feeLevel := some level }.refresh
  | setGasLimit (limit : UInt64) :
    Takes s (.setGasLimit limit) { s with gasLimitOverride := some limit }.refresh
  | setNonce (nonce : UInt64) :
    Takes s (.setNonce nonce) { s with draft := s.draft.withNonce nonce }.refresh

def Reply.isRefusal : Reply → Bool
  | refused _ => true
  | _ => false

/-- A request is either refused, and then the session stays as it was, or taken. -/
theorem perform_cases (s : Session) (c : Command) :
    (s.perform c).1.isRefusal = true ∧ (s.perform c).2 = s ∨
      (s.perform c).1.isRefusal = false ∧ s.Takes c (s.perform c).2 := by
  cases c with
  | replaceDraft draft => exact .inr ⟨rfl, .replaceDraft draft⟩
  | finalize => exact .inr ⟨rfl, .finalize⟩
  | applyRules fingerprint catalog facts =>
    simp only [perform, applyRules, ifCurrent]
    split
    · next h => subst h; exact .inr ⟨rfl, .applyRules catalog facts⟩
    · exact .inl ⟨rfl, rfl⟩
  | applySnapshot snapshot last =>
    simp only [perform, applySnapshot, ifCurrent]
    split
    · next h => exact .inr ⟨rfl, .applySnapshot last h⟩
    · exact .inl ⟨rfl, rfl⟩
  | acknowledge id confirmed =>
    simp only [perform, acknowledge, Acknowledged.acknowledge]
    cases h : Acknowledged.refusal? s.enabledOutcomes id confirmed with
    | some e => exact .inl ⟨rfl, rfl⟩
    | none => exact .inr ⟨rfl, .acknowledge h⟩
  | acknowledgeAll => exact .inr ⟨rfl, .acknowledgeAll⟩
  | undo id => exact .inr ⟨rfl, .undo id⟩
  | setRuleEnabled id enabled =>
    simp only [perform, setRuleEnabled]
    cases hc : s.catalog with
    | none => exact .inl ⟨rfl, rfl⟩
    | some catalog =>
      cases hu : catalog.withEnabled? id enabled with
      | none => exact .inl ⟨by simp [hu, settle, Reply.isRefusal], by simp [hu, settle]⟩
      | some updated => simpa [hu, settle, Reply.isRefusal] using .setRuleEnabled hc hu
  | selectFee level => exact .inr ⟨rfl, .selectFee level⟩
  | setGasLimit limit => exact .inr ⟨rfl, .setGasLimit limit⟩
  | setNonce nonce => exact .inr ⟨rfl, .setNonce nonce⟩

/-! ### Histories -/

/-- A request, with the session that it was made to. -/
structure Event where
  before : Session
  command : Command

/-- The request was not refused. -/
def Event.accepted (t : Event) : Bool := !(t.before.perform t.command).1.isRefusal

theorem takes_of_accepted {s : Session} {c : Command} (h : Event.accepted ⟨s, c⟩ = true) :
    ∃ s', s.Takes c s' := by
  rcases perform_cases s c with ⟨hr, -⟩ | ⟨-, ht⟩
  · rw [Event.accepted, hr] at h
    cases h
  · exact ⟨_, ht⟩

/-- The requests of a run in order. -/
def events : Session → List Command → List Event
  | _, [] => []
  | s, c :: cs => ⟨s, c⟩ :: (s.perform c).2.events cs

/-- The requests of a run, the latest first. -/
abbrev History := List Event

def history (s : Session) (commands : List Command) : History := (s.events commands).reverse

theorem runAll_append (s : Session) (commands more : List Command) :
    s.runAll (commands ++ more) = (s.runAll commands).runAll more := List.foldl_append

theorem events_append (s : Session) (commands more : List Command) :
    s.events (commands ++ more) = s.events commands ++ (s.runAll commands).events more := by
  induction commands generalizing s with
  | nil => rfl
  | cons c cs ih =>
    simp only [List.cons_append, events, ih]
    rfl

theorem history_append_singleton (s : Session) (commands : List Command) (c : Command) :
    s.history (commands ++ [c]) = ⟨s.runAll commands, c⟩ :: s.history commands := by
  simp [history, events_append, events]

/-- What holds at the start, and stays true when a request is refused and when one is taken, holds
after every run. -/
theorem run_induction {first : Session} {motive : History → Session → Prop}
    (start : motive [] first)
    (refused : ∀ {past s c}, Event.accepted ⟨s, c⟩ = false → motive past s →
      motive (⟨s, c⟩ :: past) s)
    (taken : ∀ {past s c s'}, Event.accepted ⟨s, c⟩ = true → s.Takes c s' → motive past s →
      motive (⟨s, c⟩ :: past) s')
    (commands : List Command) : motive (first.history commands) (first.runAll commands) := by
  induction commands using List.reverseRecOn with
  | nil => exact start
  | append_singleton cs c ih =>
    rw [history_append_singleton, runAll_append]
    rcases perform_cases (first.runAll cs) c with ⟨hr, hs⟩ | ⟨hr, ht⟩
    · show motive _ ((first.runAll cs).perform c).2
      rw [hs]
      exact refused (by simp [Event.accepted, hr]) ih
    · exact taken (by simp [Event.accepted, hr]) ht ih

/-- Every request of a run is made to a session that a shorter run leads to, so what holds after
every run holds of it. -/
theorem before_of_mem_history {first : Session} {p : Session → Prop}
    (h : ∀ commands, p (first.runAll commands)) (commands : List Command) :
    ∀ t ∈ first.history commands, p t.before := by
  induction commands using List.reverseRecOn with
  | nil => intro t ht; cases ht
  | append_singleton cs c ih =>
    intro t ht
    rw [history_append_singleton, List.mem_cons] at ht
    rcases ht with rfl | ht
    · exact h cs
    · exact ih t ht

/-! ### A sample -/

/-- The address whose bytes are all `byte`. -/
def sampleAddress (byte : UInt8) : Address := ⟨.replicate _ byte⟩

/-- A plain transfer. -/
def sampleDraft : Draft where
  chainId := 1
  sender := sampleAddress 0xAA
  recipient := some (sampleAddress 0xBB)
  value := .zero
  data := []
  nonce := none
  gasLimit := none
  gasPrice := none
  kind := .standard
  nonceEdited := false
  internalOrigin := false

/-- A session of an ordinary account that can sign. -/
def sample : Session := start sampleDraft ⟨true, false⟩ .standard

end Countersign.Session
