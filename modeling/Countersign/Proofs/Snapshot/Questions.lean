import Countersign.Proofs.Snapshot.Gather
import Mathlib.Data.List.Nodup

/-! What a gathering asks, and how it fails. It goes through its questions in a fixed order and ends
at the first one whose failure counts. Which questions there are depends on the draft and the
simulation alone. Main statement: `Sources.gather_outcome`. -/

namespace Countersign

variable {α β : Type}

/-- The error of an answer that is one. -/
def Answer.error? : Answer α → Option SourceError
  | .ok _ => none
  | .error e => some e

namespace Inquiry

/-- The questions of a plan that are asked: all up to the first one that fails. -/
def askedOf (failure? : Question → Option SourceError) : List Question → List Question
  | [] => []
  | q :: plan => if (failure? q).isSome then [q] else q :: askedOf failure? plan

section

variable {failure? : Question → Option SourceError} {plan rest : List Question}

theorem askedOf_append_of_none (h : plan.findSome? failure? = none) :
    askedOf failure? (plan ++ rest) = plan ++ askedOf failure? rest := by
  induction plan with
  | nil => rfl
  | cons q plan ih =>
    rw [List.findSome?_cons] at h
    cases hq : failure? q with
    | some e =>
      rw [hq] at h
      cases h
    | none =>
      rw [hq] at h
      rw [List.cons_append, askedOf, hq, List.cons_append, ← ih h]
      rfl

theorem askedOf_append_of_some {e : SourceError} (h : plan.findSome? failure? = some e) :
    askedOf failure? (plan ++ rest) = askedOf failure? plan := by
  induction plan with
  | nil => cases h
  | cons q plan ih =>
    rw [List.cons_append, askedOf, askedOf]
    rw [List.findSome?_cons] at h
    cases hq : failure? q with
    | some => rfl
    | none =>
      rw [hq] at h
      rw [ih h]

theorem askedOf_sublist (failure? : Question → Option SourceError) (plan : List Question) :
    (askedOf failure? plan).Sublist plan := by
  induction plan with
  | nil => exact .slnil
  | cons q plan ih =>
    rw [askedOf]
    split
    · exact (List.nil_sublist plan).cons_cons q
    · exact ih.cons_cons q

end

/-- An inquiry asks the questions of a plan in their order, and ends with the first failure among
them. -/
structure Follows (x : Inquiry α) (failure? : Question → Option SourceError)
    (plan : List Question) : Prop where
  asks : ∀ before, (x.run.run before).2 = before ++ askedOf failure? plan
  fails : ∀ before e, (x.run.run before).1 = .error e ↔ plan.findSome? failure? = some e

namespace Follows

variable {failure? : Question → Option SourceError} {question : Question} {answer : Answer α}

theorem error_eq_iff {e error : SourceError} :
    (Except.error error : Answer α) = .error e ↔ some error = some e := by
  rw [Except.error.injEq, Option.some.injEq]

theorem pure (failure? : Question → Option SourceError) (a : α) :
    Follows (Pure.pure a) failure? [] where
  asks before := (List.append_nil before).symm
  fails _ _ := ⟨nofun, nofun⟩

theorem ask (h : failure? question = answer.error?) :
    (Inquiry.ask question answer).Follows failure? [question] := by
  cases answer with
  | ok a =>
    refine ⟨fun before => ?_, fun before e => ?_⟩
    · rw [askedOf, h]
      rfl
    · rw [List.findSome?_cons, h]
      exact ⟨nofun, nofun⟩
  | error error =>
    refine ⟨fun before => ?_, fun before e => ?_⟩
    · rw [askedOf, h]
      rfl
    · rw [List.findSome?_cons, h]
      exact error_eq_iff

/-- A failure that is made up for does not count. -/
theorem askOr (h : failure? question = none) (default : α) (answer : Answer α) :
    (Inquiry.askOr question default answer).Follows failure? [question] := by
  refine ⟨fun before => ?_, fun before e => ?_⟩
  · rw [askedOf, h]
    cases answer <;> rfl
  · rw [List.findSome?_cons, h]
    cases answer <;> exact ⟨nofun, nofun⟩

theorem bind {x : Inquiry α} {f : α → Inquiry β} {plan rest : List Question}
    (hx : x.Follows failure? plan) (hf : ∀ a, x.Yields a → (f a).Follows failure? rest) :
    (x >>= f).Follows failure? (plan ++ rest) := by
  have hrun : ∀ before,
      ((x >>= f).run.run before).2 = before ++ askedOf failure? (plan ++ rest) ∧
        ∀ e, ((x >>= f).run.run before).1 = .error e ↔
          (plan ++ rest).findSome? failure? = some e := by
    intro before
    have hasks := hx.asks before
    have hfails := hx.fails before
    rw [ExceptT.run_bind, StateT.run_bind, List.findSome?_append]
    cases hresult : x.run.run before with
    | mk result asked =>
      rw [hresult] at hasks hfails
      obtain rfl : asked = before ++ askedOf failure? plan := hasks
      cases result with
      | error error =>
        -- The failure ends the inquiry, so nothing of the rest is asked.
        have hplan := (hfails error).1 rfl
        rw [askedOf_append_of_some hplan, hplan]
        exact ⟨rfl, fun e => error_eq_iff⟩
      | ok a =>
        have hplan : plan.findSome? failure? = none :=
          Option.eq_none_iff_forall_ne_some.2 fun e he => nomatch (hfails e).2 he
        have hrest := hf a ⟨before, by rw [hresult]⟩
        have hall : askedOf failure? plan = plan := by
          have happend : askedOf failure? (plan ++ []) = plan ++ askedOf failure? [] :=
            askedOf_append_of_none hplan
          rwa [List.append_nil, askedOf, List.append_nil] at happend
        rw [askedOf_append_of_none hplan, hplan, Option.none_or, ← List.append_assoc, hall]
        exact ⟨hrest.asks _, hrest.fails _⟩
  exact ⟨fun before => (hrun before).1, fun before => (hrun before).2⟩

theorem ask_bind {f : α → Inquiry β} {rest : List Question}
    (h : failure? question = answer.error?)
    (hf : ∀ a, answer = .ok a → (f a).Follows failure? rest) :
    (Inquiry.ask question answer >>= f).Follows failure? (question :: rest) :=
  (ask h).bind fun a ha => hf a ha.ask

theorem askOr_bind {f : α → Inquiry β} {rest : List Question} {default : α}
    (h : failure? question = none) (hf : ∀ a, (f a).Follows failure? rest) :
    (Inquiry.askOr question default answer >>= f).Follows failure? (question :: rest) :=
  (askOr h default answer).bind fun a _ => hf a

end Follows

end Inquiry

/-! ### Gas figures -/

/-- The gas figures of a simulation, in the order they are preferred in. -/
def Simulation.figures (simulation : Simulation) : List UInt64 :=
  if simulation.success then simulation.gasLimit.toList ++ [simulation.gasUsed] else []

theorem positive?_eq_find? (figure : Option UInt64) :
    positive? figure = figure.toList.find? (0 < ·) := by
  cases figure with
  | none => rfl
  | some gas =>
    rw [positive?, Option.filter_some, Option.toList_some, List.find?_singleton]

theorem positive?_idem (figure : Option UInt64) : positive? (positive? figure) = positive? figure := by
  rw [positive?, positive?, Option.filter_filter]
  simp

theorem Simulation.positive?_declaredGas (simulation : Simulation) :
    positive? simulation.declaredGas = simulation.figures.find? (0 < ·) := by
  unfold declaredGas figures
  split
  · rw [List.find?_append, ← positive?_eq_find?, ← Option.toList_some, ← positive?_eq_find?]
    cases hlimit : positive? simulation.gasLimit with
    | none => rw [Option.none_or, positive?_idem]
    | some gas => rw [Option.some_or, ← hlimit, positive?_idem]
  · rfl

namespace Sources

open Inquiry

variable {s : Sources} {policy : GasPolicy} {d : Draft} {simulation : Simulation}

/-- The figures that are known without history. -/
def knownFigures (d : Draft) (simulation : Simulation) : List UInt64 :=
  simulation.figures ++ d.gasLimit.toList

theorem known?_eq_none_iff_knownFigures :
    GasEstimate.known? simulation.declaredGas simulation.gasUsed d.gasLimit = none ↔
      ∀ figure ∈ knownFigures d simulation, figure = 0 := by
  rw [GasEstimate.known?_eq_none_iff, Simulation.positive?_declaredGas, positive?_eq_find?,
    ← Option.or_eq_none_iff, ← List.find?_append, ← knownFigures, List.find?_eq_none]
  simp [UInt64.lt_iff_toNat_lt, ← UInt64.toNat_inj]

/-- The figure of an estimate is the first positive one, to be scaled, or else the policy's. -/
theorem estimated_eq (s : Sources) (policy : GasPolicy) (d : Draft) (simulation : Simulation) :
    let gas? := (knownFigures d simulation ++ (s.history d).toOption.toList).find? (0 < ·)
    (s.estimated policy d simulation).gas = gas?.getD policy.fallbackGasLimit ∧
      (s.estimated policy d simulation).needsRatio = gas?.isSome := by
  dsimp only
  rw [knownFigures, List.find?_append, List.find?_append, ← Simulation.positive?_declaredGas,
    ← positive?_eq_find?, ← positive?_eq_find?, estimated, GasEstimate.known?,
    GasEstimate.ofHistory]
  cases positive? simulation.declaredGas with
  | some gas => exact ⟨rfl, rfl⟩
  | none =>
    cases positive? d.gasLimit with
    | some gas => exact ⟨rfl, rfl⟩
    | none => cases positive? (s.history d).toOption <;> exact ⟨rfl, rfl⟩

/-! ### Questions -/

/-- The failure of a source that ends the gathering. History and the base fee may fail. -/
def failure? (s : Sources) (d : Draft) : Question → Option SourceError
  | .simulation => (s.simulation d).error?
  | .history => none
  | .nonce => (s.nonce d.chainId d.sender).error?
  | .balance => (s.balance d.chainId d.sender).error?
  | .blockLimit => (s.blockLimit d.chainId).error?
  | .queuedNonce => (s.queuedNonce d.chainId d.sender).error?
  | .pending => (s.pending d.chainId d.sender).error?
  | .feeLevels => (s.feeLevels d.chainId d.gasPrice).error?
  | .baseFee => none
  | .rules => s.rules.error?
  | .safeNonces => s.safeNonces.bind fun source => (source d.chainId d.sender).error?

/-- The questions that a gathering cannot do without, in the order they are asked. -/
def required : List Question :=
  [.simulation, .nonce, .balance, .blockLimit, .queuedNonce, .pending, .feeLevels, .safeNonces,
    .rules]

/-- No figure is known from a simulation or the draft, so history is asked. -/
def asksHistory (s : Sources) (d : Draft) : Bool :=
  match s.simulation d with
  | .ok simulation => (knownFigures d simulation).all (· = 0)
  | .error _ => false

theorem asksHistory_iff : s.asksHistory d = true ↔ ∃ simulation, s.simulation d = .ok simulation ∧
    ∀ figure ∈ knownFigures d simulation, figure = 0 := by
  unfold asksHistory
  cases s.simulation d with
  | ok simulation => simp
  | error => simp

/-- All questions about a draft, in the order they are asked. -/
def questions (s : Sources) (d : Draft) : List Question :=
  .simulation :: ((if s.asksHistory d then [.history] else []) ++
    .nonce :: .balance :: .blockLimit :: .queuedNonce :: .pending :: .feeLevels :: .baseFee ::
      ((if s.safeNonces.isSome then [.safeNonces] else []) ++ [.rules]))

theorem follows_estimate (h : s.simulation d = .ok simulation) :
    (s.estimate policy d simulation).Follows (s.failure? d)
      (if s.asksHistory d then [.history] else []) := by
  have hasks : s.asksHistory d = true ↔
      GasEstimate.known? simulation.declaredGas simulation.gasUsed d.gasLimit = none := by
    rw [known?_eq_none_iff_knownFigures, asksHistory_iff, h]
    simp
  unfold Sources.estimate
  split
  · next estimate hknown =>
    rw [if_neg (by rw [hasks, hknown]; nofun)]
    exact .pure _ _
  · next hknown =>
    rw [if_pos (hasks.2 hknown)]
    exact .askOr_bind rfl fun _ => .pure _ _

theorem follows_askSafeNonces : (s.askSafeNonces d).Follows (s.failure? d)
    (if s.safeNonces.isSome then [.safeNonces] else []) := by
  unfold askSafeNonces
  split
  · next h =>
    rw [h]
    exact .pure _ _
  · next source h =>
    rw [h]
    exact .ask_bind (by rw [failure?, h]; rfl) fun _ _ => .pure _ _

theorem follows_gather : (s.gather policy d).Follows (s.failure? d) (s.questions d) := by
  refine .ask_bind rfl fun simulation hsimulation => ?_
  refine .bind (follows_estimate hsimulation) fun estimate _ => ?_
  refine .ask_bind rfl fun onChainNonce _ => ?_
  refine .ask_bind rfl fun balance _ => ?_
  refine .ask_bind rfl fun blockLimit _ => ?_
  refine .ask_bind rfl fun queuedNonce _ => ?_
  refine .ask_bind rfl fun pending _ => ?_
  refine .ask_bind rfl fun feeLevels _ => ?_
  refine .askOr_bind rfl fun baseFee => ?_
  refine .bind follows_askSafeNonces fun safe _ => ?_
  exact .ask_bind rfl fun catalog _ => .pure _ _

/-- No question is asked twice. -/
theorem nodup_questions : (s.questions d).Nodup := by
  unfold questions
  split <;> split <;> decide

theorem findSome?_questions :
    (s.questions d).findSome? (s.failure? d) = required.findSome? (s.failure? d) := by
  have hhistory : s.failure? d .history = none := rfl
  have hbaseFee : s.failure? d .baseFee = none := rfl
  have hsafe : s.safeNonces.isSome = false → s.failure? d .safeNonces = none := fun h => by
    rw [failure?, Option.isNone_iff_eq_none.1 (Option.isSome_eq_false_iff.1 h), Option.bind_none]
  unfold questions required
  cases hask : s.asksHistory d <;> cases hsome : s.safeNonces.isSome <;>
    simp [List.findSome?_cons, hhistory, hbaseFee, hsafe, hsome]

variable {g : Gathered}

theorem fingerprint_of_gather (h : (s.gather policy d).conduct.1 = .ok g) :
    g.fingerprint = d.fingerprint := by
  have h := yields_of_conduct h
  unfold gather at h
  iterate 11
    obtain ⟨_, -, h⟩ := h.bind
  rw [h.pure]

theorem history_mem_asked_iff :
    .history ∈ askedOf (s.failure? d) (s.questions d) ↔ s.asksHistory d = true := by
  constructor
  · intro hmem
    have hmem := (askedOf_sublist _ _).mem hmem
    by_contra hasks
    rw [questions, if_neg hasks] at hmem
    revert hmem
    split <;> decide
  · intro hasks
    obtain ⟨simulation, hsimulation, -⟩ := asksHistory_iff.1 hasks
    have hfirst : s.failure? d .simulation = none := by
      rw [failure?, hsimulation]
      rfl
    rw [questions, if_pos hasks, askedOf, hfirst]
    exact List.mem_cons_of_mem _ List.mem_cons_self

/-- `g` is gathered for the draft, with the first positive gas figure there is, to be scaled, or
else the policy's, which is not. -/
structure Recommends (s : Sources) (policy : GasPolicy) (d : Draft) (g : Gathered) : Prop where
  simulation : s.simulation d = .ok g.simulation
  gas : g.snapshot.estimate.gas =
    ((knownFigures d g.simulation ++ (s.history d).toOption.toList).find? (0 < ·)).getD
      policy.fallbackGasLimit
  needsRatio : g.snapshot.estimate.needsRatio =
    ((knownFigures d g.simulation ++ (s.history d).toOption.toList).find? (0 < ·)).isSome
  fingerprint : g.fingerprint = d.fingerprint
  snapshotFingerprint : g.snapshot.fingerprint = d.fingerprint

theorem recommends_of_gather (h : (s.gather policy d).conduct.1 = .ok g) :
    s.Recommends policy d g := by
  have hanswered := answered_of_gather h
  have hestimated := s.estimated_eq policy d g.simulation
  rw [← hanswered.estimate] at hestimated
  exact ⟨hanswered.simulation, hestimated.1, hestimated.2, fingerprint_of_gather h,
    hanswered.fingerprint⟩

/-- A gathering fails exactly if a required source fails, with the error of the first one that does.
History is asked once at most, and only if no figure is known from the simulation and the draft. -/
theorem gather_outcome (s : Sources) (policy : GasPolicy) (d : Draft) :
    let gathering := (s.gather policy d).conduct
    (∀ e, gathering.1 = .error e ↔ required.findSome? (s.failure? d) = some e) ∧
      ((∃ e, gathering.1 = .error e) ↔ ∃ q ∈ required, ∃ e, s.failure? d q = some e) ∧
      (∀ history baseFee e, ({ s with history, baseFee }.gather policy d).conduct.1 = .error e ↔
        gathering.1 = .error e) ∧
      gathering.2.count .history ≤ 1 ∧
      (.history ∈ gathering.2 ↔ ∃ simulation, s.simulation d = .ok simulation ∧
        ∀ figure ∈ knownFigures d simulation, figure = 0) ∧
      ∀ g, gathering.1 = .ok g → s.Recommends policy d g := by
  intro gathering
  have hfails : ∀ (s : Sources) e, (s.gather policy d).conduct.1 = .error e ↔
      required.findSome? (s.failure? d) = some e := fun s e =>
    findSome?_questions ▸ follows_gather.fails [] e
  have hasks : gathering.2 = askedOf (s.failure? d) (s.questions d) := follows_gather.asks []
  refine ⟨hfails s, ?_, fun history baseFee e => ?_, ?_, ?_, fun g => recommends_of_gather⟩
  · simp only [gathering, hfails s, ← Option.isSome_iff_exists, List.findSome?_isSome_iff]
  · rw [hfails, hfails]
    rfl
  · rw [hasks]
    exact List.nodup_iff_count_le_one.1 (nodup_questions.sublist (askedOf_sublist _ _)) .history
  · rw [hasks, history_mem_asked_iff, asksHistory_iff]

/-- Sources that know of no gas figure: the simulation fails, and history is down. So is the source
of the base fee. -/
def partialSources (catalog : RuleCatalog) : Sources where
  simulation _ := .ok ⟨23000, none, false⟩
  history _ := .error (.unavailable "history" "timeout")
  nonce _ _ := .ok 5
  balance _ _ := .ok .zero
  blockLimit _ := .ok none
  queuedNonce _ _ := .ok none
  pending _ _ := .ok []
  feeLevels _ _ := .ok []
  baseFee _ := .error (.unavailable "l1_fee" "timeout")
  rules := .ok catalog
  safeNonces := none

theorem gather_outcome_partial :
    let gathering := ((partialSources ⟨[], .nil⟩).gather .standard .sampleTransfer).conduct
    .history ∈ gathering.2 ∧ ∃ g, gathering.1 = .ok g ∧
      g.snapshot.estimate.gas = 1000000 ∧ g.snapshot.estimate.needsRatio = false ∧
      g.fingerprint = Draft.sampleTransfer.fingerprint := by
  intro gathering
  obtain ⟨-, -, -, -, hhistory, hgathered⟩ :=
    gather_outcome (partialSources ⟨[], .nil⟩) .standard .sampleTransfer
  have hrecommends := hgathered _ rfl
  exact ⟨hhistory.2 ⟨_, rfl, nofun⟩, _, rfl, hrecommends.gas, hrecommends.needsRatio,
    hrecommends.fingerprint⟩

end Sources

end Countersign
