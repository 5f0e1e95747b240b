import Countersign.Proofs.Session.History
import Countersign.Proofs.Snapshot.Gather

/-! Snapshots that arrive late. A snapshot that was gathered for a draft is refused once another one
is installed, whatever has been done to the session since, unless both ask for the same transaction.
Gas limit and gas price are no part of that, so a draft that is replaced by one with other gas takes
the old snapshot in. -/

namespace Countersign.Session

variable {s s' : Session} {c : Command}

theorem fingerprint_of_takes (ht : s.Takes c s') (hc : c.draft? = none) :
    s'.fingerprint = s.fingerprint := by
  cases ht with
  | replaceDraft => cases hc
  | applySnapshot | selectFee | setGasLimit | setNonce => rw [refresh_eq]
  | _ => rfl

/-- A session keeps its fingerprint as long as its draft is not replaced. -/
theorem fingerprint_runAll (s : Session) {commands : List Command}
    (hc : ∀ c ∈ commands, c.draft? = none) : (s.runAll commands).fingerprint = s.fingerprint := by
  induction commands generalizing s with
  | nil => rfl
  | cons c cs ih =>
    have hnext : (s.perform c).2.fingerprint = s.fingerprint := by
      rcases perform_cases s c with ⟨-, hs⟩ | ⟨-, ht⟩
      · rw [hs]
      · exact fingerprint_of_takes ht (hc c (by simp))
    exact (ih (s.perform c).2 fun c hm => hc c (by simp [hm])).trans hnext

theorem perform_applySnapshot_of_ne {snapshot : Snapshot} (last : Option LastChoice)
    (h : snapshot.fingerprint ≠ s.fingerprint) :
    s.perform (.applySnapshot snapshot last) =
      (.refused (.stale s.fingerprint snapshot.fingerprint), s) := by
  simp only [perform, applySnapshot, ifCurrent, if_neg h, settle]

theorem perform_applySnapshot_of_eq {snapshot : Snapshot} (last : Option LastChoice)
    (h : snapshot.fingerprint = s.fingerprint) :
    (s.perform (.applySnapshot snapshot last)).1 = .done := by
  simp only [perform, applySnapshot, ifCurrent, if_pos h, settle]

/-- The draft `e` has been installed, and other requests have been made since. The snapshot that was
gathered for `d` is refused unless `d` and `e` ask for the same transaction; then it is taken in,
and it is the one for `e` up to what the gas limits and the gas prices of the drafts decide. Their
fingerprints do not collide, and neither of them is the other one displaced. -/
theorem perform_superseded {sources : Sources} (hsources : sources.AnswerRequests)
    {policy : GasPolicy} {d e : Draft} {g : Gathered}
    (hgather : (sources.gather policy d).conduct.1 = .ok g)
    (hhash : d.fingerprint = e.fingerprint → d.fingerprintBytes = e.fingerprintBytes)
    (hde : ¬ d.Displaced e) (hed : ¬ e.Displaced d) (s : Session) {since : List Command}
    (hsince : ∀ c ∈ since, c.draft? = none) (last : Option LastChoice) :
    let current := (s.replaceDraft e).runAll since
    (¬ d.SameRequest e →
      current.perform (.applySnapshot g.snapshot last) =
        (.refused (.stale e.fingerprint d.fingerprint), current)) ∧
      (d.SameRequest e →
        (current.perform (.applySnapshot g.snapshot last)).1 = .done ∧
        (∀ g', (sources.gather policy e).conduct.1 = .ok g' →
          Sources.AgreeUpToGas d e g.snapshot g'.snapshot) ∧
        (d.gasLimit = e.gasLimit → d.gasPrice = e.gasPrice →
          (sources.gather policy e).conduct.1 = .ok g)) := by
  intro current
  have hcurrent : current.fingerprint = e.fingerprint :=
    fingerprint_runAll (s.replaceDraft e) hsince
  have hsnapshot : g.snapshot.fingerprint = d.fingerprint :=
    (Sources.answered_of_gather hgather).fingerprint
  constructor
  · intro hrequest
    have hne : g.snapshot.fingerprint ≠ current.fingerprint := by
      rw [hsnapshot, hcurrent]
      intro heq
      rcases Draft.sameRequest_or_displaced (hhash heq) with h | h | h
      · exact hrequest h
      · exact hde h
      · exact hed h
    rw [perform_applySnapshot_of_ne last hne, hsnapshot, hcurrent]
  · intro hrequest
    refine ⟨perform_applySnapshot_of_eq last ?_, ?_, ?_⟩
    · rw [hsnapshot, hcurrent, hrequest.fingerprint_eq]
    · intro g' hgather'
      exact Sources.agreeUpToGas_of_gather hsources hrequest hgather hgather'
    · intro hgas hprice
      rw [← Sources.gather_eq_of_sameRequest hsources hrequest hgas hprice, hgather]

/-! ### A sample -/

/-- Sources that answer the same for every draft. No figure for the gas is known from elsewhere. -/
def sampleSources : Sources where
  simulation _ := .ok ⟨0, none, true⟩
  history _ := .ok 0
  nonce _ _ := .ok 5
  balance _ _ := .ok (.cap 1000000000000000000)
  blockLimit _ := .ok none
  queuedNonce _ _ := .ok none
  pending _ _ := .ok []
  feeLevels _ price := .ok (⟨.normal, .cap 20, none, 0⟩ ::
    price.toList.map fun price => ⟨.custom, price, none, 0⟩)
  baseFee _ := .ok none
  rules := .ok ⟨[], .nil⟩
  safeNonces := none

theorem answerRequests_sampleSources : sampleSources.AnswerRequests :=
  ⟨fun _ => rfl, fun _ => rfl, fun _ => rfl⟩

/-- A transfer is replaced by one of another value, for which a nonce is set; the snapshot of the
first one is refused. -/
theorem superseded_value :
    let other := { sampleDraft with value := .cap 1 }
    let current := (sample.replaceDraft other).runAll [.setNonce 7]
    ∃ g, (sampleSources.gather .standard sampleDraft).conduct.1 = .ok g ∧
      ¬ sampleDraft.SameRequest other ∧
      current.perform (.applySnapshot g.snapshot none) =
        (.refused (.stale other.fingerprint sampleDraft.fingerprint), current) := by
  intro other current
  have hrequest : ¬ sampleDraft.SameRequest other := fun h => absurd h.value (by decide +kernel)
  refine ⟨_, rfl, hrequest, ?_⟩
  refine (perform_superseded (d := sampleDraft) (e := other) answerRequests_sampleSources rfl
    (fun h => absurd h (by decide +kernel)) (fun h => absurd h.creates (by decide))
    (fun h => absurd h.creates (by decide)) sample (by simp [Command.draft?]) none).1 hrequest

/-- A transfer is replaced by one that differs in the gas limit only. The snapshot of the first one
is not that of the second one, but it is taken in, and the gas is planned by it. -/
theorem superseded_gasLimit :
    let first := { sampleDraft with gasLimit := some 90000 }
    let other := { sampleDraft with gasLimit := some 30000 }
    let current := sample.replaceDraft other
    sampleSources.AnswerRequests ∧ first ≠ other ∧
      ∃ g g', (sampleSources.gather .standard first).conduct.1 = .ok g ∧
        (sampleSources.gather .standard other).conduct.1 = .ok g' ∧
        g.snapshot ≠ g'.snapshot ∧
        (current.perform (.applySnapshot g.snapshot none)).1 = .done ∧
        (current.perform (.applySnapshot g.snapshot none)).2 ≠ current ∧
        (current.perform (.applySnapshot g.snapshot none)).2.plan.map (·.gas) = some 90000 := by
  intro first other current
  refine ⟨answerRequests_sampleSources, by decide +kernel, _, _, rfl, rfl, ?_, ?_, ?_, ?_⟩
  · decide +kernel
  · decide +kernel
  · decide +kernel
  · decide +kernel

end Countersign.Session
