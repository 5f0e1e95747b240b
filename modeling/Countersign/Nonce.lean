import Countersign.Draft
import Countersign.Word

/-! Nonces. An ordinary account takes the next one that neither the chain nor the local queue has
used; a multisig account follows the counter of its own contract and the transactions proposed to
it. Some drafts keep the nonce they came with. -/

namespace Countersign

/-- A recommendation was asked for a draft that keeps its own nonce. -/
inductive NonceError where
  | keepsOwn (reason : KeepReason)
deriving DecidableEq

def NonceError.message : NonceError → String
  | keepsOwn reason => s!"draft keeps its existing nonce ({reason.text})"

namespace Nonce

/-- The larger of the chain's next nonce and the local queue's, if the queue has one. -/
def next (onChain : UInt64) (queued : Option UInt64) : UInt64 :=
  match queued with
  | none => onChain
  | some queued => if queued ≤ onChain then onChain else queued

def recommend (draft : Draft) (onChain : UInt64) (queued : Option UInt64) :
    Except NonceError UInt64 :=
  match draft.keepReason? with
  | some reason => .error (.keepsOwn reason)
  | none => .ok (next onChain queued)

theorem toNat_next (onChain : UInt64) (queued : Option UInt64) :
    (next onChain queued).toNat = max onChain.toNat ((queued.map (·.toNat)).getD 0) := by
  unfold next
  split
  · simp
  · simp only [UInt64.le_iff_toNat_le, Option.map_some, Option.getD_some]
    split <;> omega

end Nonce

structure SafeNonces where
  /-- The nonce that the contract executes next. -/
  current : UInt64
  /-- The nonces of transactions that are proposed and not executed. -/
  proposed : List UInt64
deriving DecidableEq

namespace SafeNonces

/-- The highest proposed nonce, proposals below the current one apart. -/
def highest? (s : SafeNonces) : Option UInt64 :=
  match s.proposed.filter fun n => s.current ≤ n with
  | [] => none
  | n :: ns => some (ns.foldl (fun top n => if top < n then n else top) n)

/-- The nonce after the highest proposed one, or the current one if nothing is proposed. -/
def next (s : SafeNonces) : UInt64 :=
  match s.highest? with
  | none => s.current
  | some top => Word.next top

/-- The nonce that is signed: the draft's own if it is not spent yet, so that a proposal can take
the place of another, or else the recommended one. -/
def resolve (s : SafeNonces) (own : Option UInt64) (recommended : UInt64) : UInt64 :=
  (own.filter fun n => s.current ≤ n).getD recommended

theorem resolve_some (s : SafeNonces) (own recommended : UInt64) :
    s.resolve (some own) recommended = if s.current ≤ own then own else recommended := by
  rw [resolve, Option.filter_some]
  by_cases h : s.current ≤ own <;> simp [h]

/-! ### The next nonce -/

/-- The lowest number that is above every proposed nonce and not below the current one. -/
def firstFree (s : SafeNonces) : Nat :=
  s.proposed.foldl (fun free n => max free (n.toNat + 1)) s.current.toNat

theorem foldl_free_le_iff (ns : List UInt64) {free k : Nat} :
    ns.foldl (fun free n => max free (n.toNat + 1)) free ≤ k ↔
      free ≤ k ∧ ∀ n ∈ ns, n.toNat < k := by
  induction ns generalizing free with
  | nil => simp
  | cons n ns ih =>
    rw [List.foldl_cons, ih, List.forall_mem_cons, ← and_assoc]
    apply and_congr_left'
    omega

theorem firstFree_le_iff {s : SafeNonces} {k : Nat} :
    s.firstFree ≤ k ↔ s.current.toNat ≤ k ∧ ∀ n ∈ s.proposed, n.toNat < k :=
  foldl_free_le_iff s.proposed

/-- From a nonce on that is not spent, the highest one is just below the first that is free. -/
theorem toNat_foldl_higher (s : SafeNonces) (ns : List UInt64) {top : UInt64}
    (h : s.current ≤ top) :
    ((ns.filter fun n => s.current ≤ n).foldl (fun top n => if top < n then n else top)
      top).toNat + 1 = ns.foldl (fun free n => max free (n.toNat + 1)) (top.toNat + 1) := by
  induction ns generalizing top with
  | nil => rfl
  | cons n ns ih =>
    rw [List.foldl_cons]
    by_cases hn : s.current ≤ n
    · have htop : s.current ≤ if top < n then n else top := by split <;> assumption
      have hmax : (if top < n then n else top).toNat + 1 = max (top.toNat + 1) (n.toNat + 1) := by
        split <;> rename_i hlt <;> rw [UInt64.lt_iff_toNat_lt] at hlt <;> omega
      rw [List.filter_cons_of_pos (by simpa using hn), List.foldl_cons, ih htop, hmax]
    · have hmax : max (top.toNat + 1) (n.toNat + 1) = top.toNat + 1 := by
        rw [UInt64.le_iff_toNat_le] at hn h
        omega
      rw [List.filter_cons_of_neg (by simpa using hn), ih h, hmax]

/-- The next nonce is the first one that is free, up to the largest word. -/
theorem toNat_next (s : SafeNonces) : s.next.toNat = min s.firstFree (UInt64.size - 1) := by
  unfold next highest? firstFree
  induction s.proposed with
  | nil =>
    have := s.current.toNat_lt_size
    simp only [List.filter_nil, List.foldl_nil]
    omega
  | cons n ns ih =>
    rw [List.foldl_cons]
    by_cases hn : s.current ≤ n
    · have hmax : max s.current.toNat (n.toNat + 1) = n.toNat + 1 := by
        rw [UInt64.le_iff_toNat_le] at hn
        omega
      rw [List.filter_cons_of_pos (by simpa using hn), hmax, ← s.toNat_foldl_higher ns hn]
      exact Word.toNat_next _
    · have hmax : max s.current.toNat (n.toNat + 1) = s.current.toNat := by
        rw [UInt64.le_iff_toNat_le] at hn
        omega
      rw [List.filter_cons_of_neg (by simpa using hn), hmax, ih]

end SafeNonces

end Countersign
