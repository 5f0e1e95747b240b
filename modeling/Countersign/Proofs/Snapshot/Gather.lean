import Countersign.Proofs.Draft.Fingerprint
import Countersign.Snapshot

/-! What a gathering that succeeds consists of: each part of the result is the answer of its source.
Of the draft itself only the gas limit and the gas price matter beyond what the draft asks for, the
one for the estimate and the other for the fee levels. -/

namespace Countersign

variable {α β : Type}

namespace Inquiry

/-- The computation ends with the result `a`, whatever was asked before. -/
def Yields (x : Inquiry α) (a : α) : Prop := ∃ asked, (x.run.run asked).1 = .ok a

theorem yields_of_conduct {x : Inquiry α} {a : α} (h : x.conduct.1 = .ok a) : x.Yields a := ⟨[], h⟩

theorem Yields.bind {x : Inquiry α} {f : α → Inquiry β} {b : β} (h : Yields (x >>= f) b) :
    ∃ a, x.Yields a ∧ (f a).Yields b := by
  obtain ⟨asked, h⟩ := h
  rw [ExceptT.run_bind, StateT.run_bind] at h
  cases hx : x.run.run asked with
  | mk result asked' =>
    rw [hx] at h
    cases result with
    | error e => cases h
    | ok a => exact ⟨a, ⟨asked, by rw [hx]⟩, asked', h⟩

theorem Yields.pure {a b : α} (h : Yields (pure a) b) : b = a := by
  obtain ⟨asked, h⟩ := h
  cases h
  rfl

theorem Yields.ask {question : Question} {answer : Answer α} {a : α}
    (h : Yields (ask question answer) a) : answer = .ok a := by
  obtain ⟨asked, h⟩ := h
  cases answer with
  | ok b => cases h; rfl
  | error e => cases h

theorem Yields.askOr {question : Question} {default a : α} {answer : Answer α}
    (h : Yields (askOr question default answer) a) : a = answer.toOption.getD default := by
  obtain ⟨asked, h⟩ := h
  cases answer <;> (cases h; rfl)

end Inquiry

namespace Sources

open Inquiry

variable {s : Sources} {policy : GasPolicy} {d e : Draft} {g g' : Gathered}

/-- What a simulation and, where it is consulted, the history of a draft come to. -/
def estimated (s : Sources) (policy : GasPolicy) (d : Draft) (simulation : Simulation) :
    GasEstimate :=
  (GasEstimate.known? simulation.declaredGas simulation.gasUsed d.gasLimit).getD
    (GasEstimate.ofHistory policy (s.history d).toOption)

/-- `g` is made of the answers for the draft `d`. -/
structure Answered (s : Sources) (policy : GasPolicy) (d : Draft) (g : Gathered) : Prop where
  simulation : s.simulation d = .ok g.simulation
  estimate : g.snapshot.estimate = s.estimated policy d g.simulation
  nonce : s.nonce d.chainId d.sender = .ok g.snapshot.onChainNonce
  balance : s.balance d.chainId d.sender = .ok g.snapshot.balance
  blockLimit : s.blockLimit d.chainId = .ok g.snapshot.blockLimit
  queuedNonce : s.queuedNonce d.chainId d.sender = .ok g.snapshot.queuedNonce
  pending : s.pending d.chainId d.sender = .ok g.snapshot.pending
  feeLevels : s.feeLevels d.chainId d.gasPrice = .ok g.snapshot.feeLevels
  baseFee : g.snapshot.baseFee = (s.baseFee d).toOption.getD none
  safe : s.safeNonces.map (fun source => source d.chainId d.sender) = g.snapshot.safe.map .ok
  catalog : s.rules = .ok g.catalog
  fingerprint : g.snapshot.fingerprint = d.fingerprint

theorem estimate_of_yields {simulation : Simulation} {estimate : GasEstimate}
    (h : (s.estimate policy d simulation).Yields estimate) :
    estimate = s.estimated policy d simulation := by
  unfold Sources.estimate at h
  unfold estimated
  split at h
  · next known hk => rw [h.pure, hk, Option.getD_some]
  · next hk =>
    obtain ⟨used, hused, h⟩ := h.bind
    have hused : used = (s.history d).toOption := by
      rw [hused.askOr]
      cases s.history d <;> rfl
    rw [h.pure, hused, hk, Option.getD_none]

theorem safe_of_yields {safe : Option SafeNonces} (h : (s.askSafeNonces d).Yields safe) :
    s.safeNonces.map (fun source => source d.chainId d.sender) = safe.map .ok := by
  unfold askSafeNonces at h
  split at h
  · next hn => rw [h.pure, hn]; rfl
  · next source hn =>
    obtain ⟨nonces, hnonces, h⟩ := h.bind
    rw [h.pure, hn, Option.map_some, Option.map_some, hnonces.ask]

/-- A gathering that succeeds has asked every source, and gives what they answered. -/
theorem answered_of_gather (h : (s.gather policy d).conduct.1 = .ok g) : s.Answered policy d g := by
  have h := yields_of_conduct h
  unfold gather at h
  obtain ⟨simulation, hsimulation, h⟩ := h.bind
  obtain ⟨estimate, hestimate, h⟩ := h.bind
  obtain ⟨nonce, hnonce, h⟩ := h.bind
  obtain ⟨balance, hbalance, h⟩ := h.bind
  obtain ⟨blockLimit, hblockLimit, h⟩ := h.bind
  obtain ⟨queuedNonce, hqueuedNonce, h⟩ := h.bind
  obtain ⟨pending, hpending, h⟩ := h.bind
  obtain ⟨feeLevels, hfeeLevels, h⟩ := h.bind
  obtain ⟨baseFee, hbaseFee, h⟩ := h.bind
  obtain ⟨safe, hsafe, h⟩ := h.bind
  obtain ⟨catalog, hcatalog, h⟩ := h.bind
  rw [h.pure]
  exact ⟨hsimulation.ask, estimate_of_yields hestimate, hnonce.ask, hbalance.ask, hblockLimit.ask,
    hqueuedNonce.ask, hpending.ask, hfeeLevels.ask, hbaseFee.askOr, safe_of_yields hsafe,
    hcatalog.ask, rfl⟩

/-! ### Drafts that ask for the same transaction -/

/-- Sources that look at a draft look at what it asks for only. -/
structure AnswerRequests (s : Sources) : Prop where
  simulation : ∀ {d e : Draft}, d.SameRequest e → s.simulation d = s.simulation e
  history : ∀ {d e : Draft}, d.SameRequest e → s.history d = s.history e
  baseFee : ∀ {d e : Draft}, d.SameRequest e → s.baseFee d = s.baseFee e

variable (hs : s.AnswerRequests) (hr : d.SameRequest e)

include hs hr

/-- Snapshots for the same request differ in the estimate and the fee levels at most. -/
theorem snapshot_eq_of_sameRequest (hd : s.Answered policy d g) (he : s.Answered policy e g') :
    g.snapshot =
      { g'.snapshot with
        estimate := g.snapshot.estimate
        feeLevels := g.snapshot.feeLevels } := by
  have hfingerprint : g.snapshot.fingerprint = g'.snapshot.fingerprint := by
    rw [hd.fingerprint, he.fingerprint, hr.fingerprint_eq]
  have hnonce : g.snapshot.onChainNonce = g'.snapshot.onChainNonce :=
    Except.ok.inj (by rw [← hd.nonce, ← he.nonce, hr.chainId, hr.sender])
  have hqueued : g.snapshot.queuedNonce = g'.snapshot.queuedNonce :=
    Except.ok.inj (by rw [← hd.queuedNonce, ← he.queuedNonce, hr.chainId, hr.sender])
  have hbalance : g.snapshot.balance = g'.snapshot.balance :=
    Except.ok.inj (by rw [← hd.balance, ← he.balance, hr.chainId, hr.sender])
  have hpending : g.snapshot.pending = g'.snapshot.pending :=
    Except.ok.inj (by rw [← hd.pending, ← he.pending, hr.chainId, hr.sender])
  have hblock : g.snapshot.blockLimit = g'.snapshot.blockLimit :=
    Except.ok.inj (by rw [← hd.blockLimit, ← he.blockLimit, hr.chainId])
  have hbase : g.snapshot.baseFee = g'.snapshot.baseFee := by
    rw [hd.baseFee, he.baseFee, hs.baseFee hr]
  have hsafe : g.snapshot.safe = g'.snapshot.safe := by
    have hmap := hd.safe.symm
    rw [hr.chainId, hr.sender, he.safe] at hmap
    exact Option.map_injective (fun _ _ => Except.ok.inj) hmap
  dsimp only
  rw [← hfingerprint, ← hnonce, ← hqueued, ← hbalance, ← hpending, ← hblock, ← hbase, ← hsafe]

theorem estimate_eq_of_sameRequest (hd : s.Answered policy d g) (he : s.Answered policy e g')
    (hgas : d.gasLimit = e.gasLimit) : g.snapshot.estimate = g'.snapshot.estimate := by
  have hsimulation : g.simulation = g'.simulation :=
    Except.ok.inj (by rw [← hd.simulation, ← he.simulation, hs.simulation hr])
  rw [hd.estimate, he.estimate, estimated, estimated, hsimulation, hgas, hs.history hr]

omit hs in
theorem feeLevels_eq_of_sameRequest (hd : s.Answered policy d g) (he : s.Answered policy e g')
    (hprice : d.gasPrice = e.gasPrice) : g.snapshot.feeLevels = g'.snapshot.feeLevels :=
  Except.ok.inj (by rw [← hd.feeLevels, ← he.feeLevels, hr.chainId, hprice])

/-- `t` and `u`, gathered for `d` and `e`, differ in what the gas limits and the gas prices of the
drafts decide at most. -/
structure AgreeUpToGas (d e : Draft) (t u : Snapshot) : Prop where
  rest : t = { u with estimate := t.estimate, feeLevels := t.feeLevels }
  estimate : d.gasLimit = e.gasLimit → t.estimate = u.estimate
  feeLevels : d.gasPrice = e.gasPrice → t.feeLevels = u.feeLevels

theorem agreeUpToGas_of_gather (hd : (s.gather policy d).conduct.1 = .ok g)
    (he : (s.gather policy e).conduct.1 = .ok g') : AgreeUpToGas d e g.snapshot g'.snapshot :=
  have hd := answered_of_gather hd
  have he := answered_of_gather he
  ⟨snapshot_eq_of_sameRequest hs hr hd he, estimate_eq_of_sameRequest hs hr hd he,
    feeLevels_eq_of_sameRequest hr hd he⟩

/-- What is gathered for a draft depends on what it asks for, its gas limit and its gas price. -/
theorem gather_eq_of_sameRequest (hgas : d.gasLimit = e.gasLimit)
    (hprice : d.gasPrice = e.gasPrice) :
    s.gather policy d = s.gather policy e := by
  simp only [gather, Sources.estimate, askSafeNonces, hr.chainId, hr.sender, hs.simulation hr,
    hs.history hr, hs.baseFee hr, hgas, hprice, hr.fingerprint_eq]

end Sources

end Countersign
