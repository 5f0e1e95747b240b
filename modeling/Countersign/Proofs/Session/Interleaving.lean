import Countersign.Proofs.Session.Danger
import Countersign.Proofs.Session.Nonce
import Countersign.Proofs.Session.Superseded

/-! Requests about the rules and requests about the chain. Neither side of a session reads what the
other one changes, apart from the fingerprint, which both leave alone. So each side goes through its
own requests as if there were no others, and the session that two sequences of requests lead to does
not depend on how they are interleaved. -/

namespace Countersign.Session

inductive Side where
  | rules
  | chain
deriving DecidableEq

/-- The side that a request belongs to. A draft is replaced on both. -/
def Command.side? : Command → Option Side
  | replaceDraft _ => none
  | finalize | applyRules .. | acknowledge .. | acknowledgeAll | undo _ | setRuleEnabled .. =>
    some .rules
  | applySnapshot .. | selectFee _ | setGasLimit _ | setNonce _ => some .chain

/-- The session with the rules, facts, outcomes and acknowledgements of another one. -/
def withRulesOf (s t : Session) : Session :=
  { s with
    catalog := t.catalog
    facts := t.facts
    outcomes := t.outcomes
    acknowledged := t.acknowledged }

variable {s t : Session} {c : Command}

theorem withRulesOf_self (s : Session) : s.withRulesOf s = s := rfl

theorem refresh_withRulesOf (s t : Session) :
    (s.withRulesOf t).refresh = s.refresh.withRulesOf t := by
  unfold refresh withRulesOf
  dsimp only
  split <;> rfl

theorem fingerprint_perform (hc : c.draft? = none) :
    (s.perform c).2.fingerprint = s.fingerprint := by
  rcases perform_cases s c with ⟨-, hs⟩ | ⟨-, ht⟩
  · rw [hs]
  · exact fingerprint_of_takes ht hc

theorem Command.draft?_of_side? {side : Side} (hc : c.side? = some side) : c.draft? = none := by
  cases c with
  | replaceDraft => cases hc
  | _ => rfl

/-- A request about the rules is answered by the rules alone, and changes nothing else. -/
theorem perform_rules (hc : c.side? = some .rules) (ht : t.fingerprint = s.fingerprint) :
    (s.withRulesOf t).perform c = ((t.perform c).1, s.withRulesOf (t.perform c).2) := by
  cases c with
  | replaceDraft | applySnapshot | selectFee | setGasLimit | setNonce => cases hc
  | finalize | acknowledgeAll | undo => rfl
  | applyRules fingerprint catalog facts =>
    have hsame : (s.withRulesOf t).fingerprint = t.fingerprint := ht.symm
    simp only [perform, applyRules]
    by_cases h : fingerprint = t.fingerprint
    · rw [settle_ifCurrent_of_eq h, settle_ifCurrent_of_eq (h.trans hsame.symm)]
      rfl
    · have hother : fingerprint ≠ (s.withRulesOf t).fingerprint := hsame.symm ▸ h
      rw [settle_ifCurrent_of_ne h, settle_ifCurrent_of_ne hother, hsame]
  | acknowledge id confirmed =>
    have hoccasion : (s.withRulesOf t).acknowledged.acknowledge (s.withRulesOf t).enabledOutcomes
        id confirmed = t.acknowledged.acknowledge t.enabledOutcomes id confirmed := rfl
    simp only [perform, acknowledge, hoccasion]
    cases t.acknowledged.acknowledge t.enabledOutcomes id confirmed <;> rfl
  | setRuleEnabled id enabled =>
    have hcatalog : (s.withRulesOf t).catalog = t.catalog := rfl
    simp only [perform, setRuleEnabled, hcatalog]
    cases t.catalog with
    | none => rfl
    | some catalog =>
      dsimp only
      cases catalog.withEnabled? id enabled <;> rfl

/-- A request about the chain does not look at the rules, and leaves them as they are. -/
theorem perform_chain (hc : c.side? = some .chain) :
    (s.withRulesOf t).perform c = ((s.perform c).1, (s.perform c).2.withRulesOf t) := by
  cases c with
  | replaceDraft | finalize | applyRules | acknowledge | acknowledgeAll | undo | setRuleEnabled =>
    cases hc
  | applySnapshot snapshot last =>
    have hsame : (s.withRulesOf t).fingerprint = s.fingerprint := rfl
    simp only [perform, applySnapshot]
    by_cases h : snapshot.fingerprint = s.fingerprint
    · rw [settle_ifCurrent_of_eq h, settle_ifCurrent_of_eq (h.trans hsame.symm)]
      exact congrArg (Prod.mk _) (refresh_withRulesOf { s with
        feeLevel := FeeLevel.start? snapshot.feeLevels last s.draft.prefersCustomFee
        snapshot := some snapshot } t)
    · have hother : snapshot.fingerprint ≠ (s.withRulesOf t).fingerprint := hsame.symm ▸ h
      rw [settle_ifCurrent_of_ne h, settle_ifCurrent_of_ne hother, hsame]
  | selectFee level =>
    exact congrArg (Prod.mk _) (refresh_withRulesOf { s with feeLevel := some level } t)
  | setGasLimit limit =>
    exact congrArg (Prod.mk _) (refresh_withRulesOf { s with gasLimitOverride := some limit } t)
  | setNonce nonce =>
    exact congrArg (Prod.mk _) (refresh_withRulesOf { s with draft := s.draft.withNonce nonce } t)

/-! ### Two requests -/

/-- A request about the rules and one about the chain, in either order. -/
theorem perform_perform {a b : Command} (ha : a.side? = some .rules) (hb : b.side? = some .chain)
    (s : Session) :
    (s.perform a).2.perform b = ((s.perform b).1, (s.perform b).2.withRulesOf (s.perform a).2) ∧
      (s.perform b).2.perform a =
        ((s.perform a).1, (s.perform b).2.withRulesOf (s.perform a).2) := by
  have hrules : (s.perform a).2 = s.withRulesOf (s.perform a).2 :=
    congrArg Prod.snd (perform_rules (s := s) (t := s) ha rfl)
  have hchain : (s.perform b).2 = (s.perform b).2.withRulesOf s :=
    congrArg Prod.snd (perform_chain (s := s) (t := s) hb)
  constructor
  · rw [hrules, perform_chain hb]
    rfl
  · rw [hchain, perform_rules ha (fingerprint_perform (Command.draft?_of_side? hb)).symm]
    rfl

/-! ### Sequences of requests -/

/-- The requests of one side, in order. -/
def onSide (side : Side) (commands : List Command) : List Command :=
  commands.filter fun c => c.side? = some side

/-- The requests of a run with their replies. -/
def answers (s : Session) (commands : List Command) : List (Command × Reply) :=
  (s.events commands).map fun t => (t.command, (t.before.perform t.command).1)

/-- The requests of one side with the replies that they get in a run. -/
def answersOn (side : Side) (s : Session) (commands : List Command) : List (Command × Reply) :=
  (s.answers commands).filter fun a => a.1.side? = some side

theorem onSide_cons_of_eq {side : Side} (hc : c.side? = some side) (cs : List Command) :
    onSide side (c :: cs) = c :: onSide side cs := by
  simp [onSide, hc]

theorem onSide_cons_of_ne {side : Side} (hc : c.side? ≠ some side) (cs : List Command) :
    onSide side (c :: cs) = onSide side cs := by
  simp [onSide, hc]

theorem answers_cons (s : Session) (c : Command) (cs : List Command) :
    s.answers (c :: cs) = (c, (s.perform c).1) :: (s.perform c).2.answers cs := rfl

theorem answersOn_cons_of_eq {side : Side} (hc : c.side? = some side) (s : Session)
    (cs : List Command) :
    answersOn side s (c :: cs) = (c, (s.perform c).1) :: answersOn side (s.perform c).2 cs := by
  simp [answersOn, answers_cons, hc]

theorem answersOn_cons_of_ne {side : Side} (hc : c.side? ≠ some side) (s : Session)
    (cs : List Command) :
    answersOn side s (c :: cs) = answersOn side (s.perform c).2 cs := by
  simp [answersOn, answers_cons, hc]

/-- Each side goes through its own requests as if there were no others. -/
theorem runAll_withRulesOf {commands : List Command} (hc : ∀ c ∈ commands, c.side?.isSome = true)
    (ht : t.fingerprint = s.fingerprint) :
    (s.withRulesOf t).runAll commands =
        (s.runAll (onSide .chain commands)).withRulesOf (t.runAll (onSide .rules commands)) ∧
      answersOn .rules (s.withRulesOf t) commands = t.answers (onSide .rules commands) ∧
      answersOn .chain (s.withRulesOf t) commands = s.answers (onSide .chain commands) := by
  -- On the requests. The next one is made to one of the two sessions, and both go on with the same
  -- fingerprint.
  induction commands generalizing s t with
  | nil => exact ⟨rfl, rfl, rfl⟩
  | cons c cs ih =>
    obtain ⟨side, hside⟩ := Option.isSome_iff_exists.1 (hc c List.mem_cons_self)
    have hcs : ∀ c ∈ cs, c.side?.isSome = true := fun c hm => hc c (List.mem_cons_of_mem _ hm)
    have hkeep : ∀ u : Session, (u.perform c).2.fingerprint = u.fingerprint :=
      fun u => fingerprint_perform (Command.draft?_of_side? hside)
    cases side with
    | rules =>
      have hother : c.side? ≠ some .chain := by simp [hside]
      have hperform := perform_rules (s := s) hside ht
      obtain ⟨hrun, hrules, hchain⟩ := ih (s := s) (t := (t.perform c).2) hcs ((hkeep t).trans ht)
      rw [onSide_cons_of_eq hside, onSide_cons_of_ne hother, answersOn_cons_of_eq hside,
        answersOn_cons_of_ne hother, answers_cons, hperform, hrules, hchain]
      refine ⟨?_, rfl, rfl⟩
      show (((s.withRulesOf t).perform c).2).runAll cs = _
      rw [hperform]
      exact hrun
    | chain =>
      have hother : c.side? ≠ some .rules := by simp [hside]
      have hperform := perform_chain (s := s) (t := t) hside
      obtain ⟨hrun, hrules, hchain⟩ := ih (s := (s.perform c).2) (t := t) hcs
        (ht.trans (hkeep s).symm)
      rw [onSide_cons_of_eq hside, onSide_cons_of_ne hother, answersOn_cons_of_eq hside,
        answersOn_cons_of_ne hother, answers_cons, hperform, hrules, hchain]
      refine ⟨?_, rfl, rfl⟩
      show (((s.withRulesOf t).perform c).2).runAll cs = _
      rw [hperform]
      exact hrun

/-- A request about the rules and one about the chain may change places: the session is the same
afterwards, and both get the same replies. So may all of them: two interleavings of the same
requests about the rules with the same requests about the chain lead to the same session and the
same verdict, and each request gets the same reply in both. -/
theorem interleavings_agree (s : Session) :
    (∀ a b : Command, a.side? = some .rules → b.side? = some .chain →
      ((s.perform a).2.perform b).2 = ((s.perform b).2.perform a).2 ∧
        ((s.perform a).2.perform b).1 = (s.perform b).1 ∧
        ((s.perform b).2.perform a).1 = (s.perform a).1) ∧
      ∀ commands others : List Command,
        (∀ c ∈ commands, c.side?.isSome = true) → (∀ c ∈ others, c.side?.isSome = true) →
        (∀ side, onSide side commands = onSide side others) →
        s.runAll commands = s.runAll others ∧
          (s.runAll commands).verdict = (s.runAll others).verdict ∧
          ∀ side, answersOn side s commands = answersOn side s others := by
  constructor
  · intro a b ha hb
    obtain ⟨hab, hba⟩ := perform_perform ha hb s
    rw [hab, hba]
    exact ⟨rfl, rfl, rfl⟩
  · intro commands others hcommands hothers hsame
    obtain ⟨hrun, hrules, hchain⟩ := runAll_withRulesOf (s := s) (t := s) hcommands rfl
    obtain ⟨hrun', hrules', hchain'⟩ := runAll_withRulesOf (s := s) (t := s) hothers rfl
    rw [withRulesOf_self] at hrun hrules hchain hrun' hrules' hchain'
    have hsession : s.runAll commands = s.runAll others := by
      rw [hrun, hrun', hsame, hsame]
    refine ⟨hsession, by rw [hsession], fun side => ?_⟩
    cases side with
    | rules => rw [hrules, hrules', hsame]
    | chain => rw [hchain, hchain', hsame]

/-- A danger is found and confirmed while the snapshot and a nonce come in, or after them. -/
theorem interleavings_agree_sample :
    let snapshot := sampleSnapshot 5 [⟨.normal, .cap 20, none, 0⟩]
    let commands := [applySample true, .applySnapshot snapshot none, .acknowledge "spender" true,
      .setNonce 9]
    let others := [.applySnapshot snapshot none, .setNonce 9, applySample true,
      .acknowledge "spender" true]
    sample.runAll commands = sample.runAll others ∧
      (sample.runAll commands).verdict = (sample.runAll others).verdict ∧
      (sample.runAll commands).verdict.canSubmit = true ∧
      answersOn .rules sample commands = answersOn .rules sample others ∧
      ((sample.perform (applySample true)).2.perform (.setNonce 9)).2 =
        ((sample.perform (.setNonce 9)).2.perform (applySample true)).2 := by
  intro snapshot commands others
  have hcommands : ∀ c ∈ commands, c.side?.isSome = true := by
    simp [commands, applySample, Command.side?]
  have hothers : ∀ c ∈ others, c.side?.isSome = true := by
    simp [others, applySample, Command.side?]
  have hsame : ∀ side, onSide side commands = onSide side others := by
    intro side
    cases side <;> rfl
  obtain ⟨hpairs, hruns⟩ := interleavings_agree sample
  obtain ⟨hsession, hverdict, hanswers⟩ := hruns commands others hcommands hothers hsame
  exact ⟨hsession, hverdict, by decide +kernel, hanswers .rules,
    (hpairs (applySample true) (.setNonce 9) rfl rfl).1⟩

end Countersign.Session
