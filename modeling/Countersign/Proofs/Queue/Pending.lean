import Countersign.Queue.Log
import Mathlib.Data.List.Induction

/-! What is pending for an account, said of the records in their order: the latest record of each of
its nonces, unless that one is completed. -/

namespace Countersign.PendingRecord

/-- The two are for one nonce of one account. -/
def SameKey (r s : PendingRecord) : Prop :=
  r.chainId = s.chainId ∧ r.sender = s.sender ∧ r.nonce = s.nonce

/-- `r` is among the records, and none behind it has its chain, sender and nonce. -/
def IsLatest (records : List PendingRecord) (r : PendingRecord) : Prop :=
  ∃ before after, records = before ++ r :: after ∧ ∀ s ∈ after, ¬SameKey r s

/-- The queue of an account: its latest records that are not completed, by ascending nonce. -/
structure IsQueue (records : List PendingRecord) (chain : UInt64) (sender : Address)
    (queue : List PendingRecord) : Prop where
  ascending : queue.Pairwise fun r s => r.nonce < s.nonce
  mem_iff : ∀ r, r ∈ queue ↔
    IsLatest records r ∧ r.chainId = chain ∧ r.sender = sender ∧ r.completed = false

variable {records : List PendingRecord} {chain : UInt64} {sender : Address}

theorem not_isLatest_nil (r : PendingRecord) : ¬IsLatest [] r := by
  rintro ⟨before, after, h, -⟩
  simp at h

/-- A record that is added counts, and takes the place of those with its key. -/
theorem isLatest_concat {r s : PendingRecord} :
    IsLatest (records ++ [s]) r ↔ r = s ∨ IsLatest records r ∧ ¬SameKey r s := by
  constructor
  · rintro ⟨before, after, hsplit, hafter⟩
    rcases List.eq_nil_or_concat after with rfl | ⟨after', s', rfl⟩
    · obtain ⟨-, hs⟩ := List.append_inj' hsplit rfl
      exact .inl (List.cons.inj hs).1.symm
    · rw [List.concat_eq_append] at hsplit hafter
      rw [← List.cons_append, ← List.append_assoc] at hsplit
      obtain ⟨hrecords, hs⟩ := List.append_inj' hsplit rfl
      obtain rfl := (List.cons.inj hs).1
      exact .inr ⟨⟨before, after', hrecords, fun t ht => hafter t (by simp [ht])⟩,
        hafter s (by simp)⟩
  · rintro (rfl | ⟨⟨before, after, rfl, hafter⟩, hs⟩)
    · exact ⟨records, [], rfl, by simp⟩
    · refine ⟨before, after ++ [s], by simp, fun t ht => ?_⟩
      rcases List.mem_append.1 ht with ht | ht
      · exact hafter t ht
      · obtain rfl := List.mem_singleton.1 ht
        exact hs

theorem latest_concat (records : List PendingRecord) (s : PendingRecord) (chain : UInt64)
    (sender : Address) :
    latest (records ++ [s]) chain sender =
      if s.chainId = chain ∧ s.sender = sender then
        (latest records chain sender).insert s.nonce s
      else latest records chain sender := by
  by_cases h : s.chainId = chain ∧ s.sender = sender <;> simp [latest, Table.ofList, h]

/-- A table of latest records holds what the order of the records says. -/
theorem get?_latest {nonce : UInt64} {r : PendingRecord} :
    (latest records chain sender).get? nonce = some r ↔
      IsLatest records r ∧ r.chainId = chain ∧ r.sender = sender ∧ r.nonce = nonce := by
  -- From the back: the last record settles its own key and leaves the others as they were.
  induction records using List.reverseRecOn with
  | nil =>
    have hnone : (latest [] chain sender).get? nonce = none := rfl
    simp [hnone, not_isLatest_nil]
  | append_singleton records s ih =>
    rw [latest_concat, isLatest_concat]
    by_cases hs : s.chainId = chain ∧ s.sender = sender
    · obtain ⟨rfl, rfl⟩ := hs
      rw [if_pos ⟨rfl, rfl⟩, Table.get?_insert]
      simp only [Std.LawfulEqCmp.compare_eq_iff_eq]
      split
      · next hnonce =>
        subst hnonce
        rw [Option.some.injEq]
        constructor
        · rintro rfl
          exact ⟨.inl rfl, rfl, rfl, rfl⟩
        · rintro ⟨rfl | ⟨-, hkey⟩, hchain, hsender, hnonce⟩
          · rfl
          · exact absurd ⟨hchain, hsender, hnonce⟩ hkey
      · next hnonce =>
        rw [ih]
        constructor
        · rintro ⟨hlatest, hchain, hsender, rfl⟩
          exact ⟨.inr ⟨hlatest, fun hkey => hnonce hkey.2.2.symm⟩, hchain, hsender, rfl⟩
        · rintro ⟨rfl | ⟨hlatest, -⟩, hr⟩
          · exact absurd hr.2.2 hnonce
          · exact ⟨hlatest, hr⟩
    · rw [if_neg hs, ih]
      constructor
      · rintro ⟨hlatest, rfl, rfl, hnonce⟩
        exact ⟨.inr ⟨hlatest, fun hkey => hs ⟨hkey.1.symm, hkey.2.1.symm⟩⟩, rfl, rfl, hnonce⟩
      · rintro ⟨rfl | ⟨hlatest, -⟩, hchain, hsender, hnonce⟩
        · exact absurd ⟨hchain, hsender⟩ hs
        · exact ⟨hlatest, hchain, hsender, hnonce⟩

theorem mem_rows_latest {row : UInt64 × PendingRecord} :
    row ∈ (latest records chain sender).rows ↔
      IsLatest records row.2 ∧ row.2.chainId = chain ∧ row.2.sender = sender ∧
        row.2.nonce = row.1 := by
  rw [← get?_latest, Table.get?_eq_some_iff]

/-- What is pending is the queue of the account. -/
theorem isQueue_pending (records : List PendingRecord) (chain : UInt64) (sender : Address) :
    IsQueue records chain sender (pending records chain sender) where
  ascending := by
    rw [pending, Table.values, List.pairwise_filter, List.pairwise_map]
    refine (latest records chain sender).ascending.imp_of_mem fun {a b} ha hb hlt => ?_
    intro _ _
    rw [(mem_rows_latest.1 ha).2.2.2, (mem_rows_latest.1 hb).2.2.2]
    exact compareOfLessAndEq_eq_lt.1 hlt
  mem_iff r := by
    rw [pending, List.mem_filter, Table.values, List.mem_map]
    constructor
    · rintro ⟨⟨row, hrow, rfl⟩, hcompleted⟩
      obtain ⟨hlatest, hchain, hsender, -⟩ := mem_rows_latest.1 hrow
      exact ⟨hlatest, hchain, hsender, by simpa using hcompleted⟩
    · rintro ⟨hlatest, hchain, hsender, hcompleted⟩
      exact ⟨⟨(r.nonce, r), mem_rows_latest.2 ⟨hlatest, hchain, hsender, rfl⟩, rfl⟩,
        by simp [hcompleted]⟩

theorem nextNonce_eq_none_iff :
    nextNonce records chain sender = none ↔ pending records chain sender = [] := by
  rw [nextNonce, Option.map_eq_none_iff, List.getLast?_eq_none_iff]

/-- The last record of the queue has the highest nonce. -/
theorem nextNonce_of_highest {r : PendingRecord} (hr : r ∈ pending records chain sender)
    (hhighest : ∀ s ∈ pending records chain sender, s.nonce ≤ r.nonce) :
    nextNonce records chain sender = some (Word.next r.nonce) := by
  have hascending := (isQueue_pending records chain sender).ascending
  have hne : pending records chain sender ≠ [] := List.ne_nil_of_mem hr
  obtain ⟨last, hlast⟩ := Option.isSome_iff_exists.1 (List.getLast?_isSome.2 hne)
  obtain ⟨before, hqueue⟩ := List.getLast?_eq_some_iff.1 hlast
  rw [hqueue] at hr hhighest hascending
  have hsame : r = last := by
    rcases List.mem_append.1 hr with hbefore | hr
    · have hlt : r.nonce < last.nonce :=
        (List.pairwise_append.1 hascending).2.2 r hbefore last (by simp)
      have hle : last.nonce ≤ r.nonce := hhighest last (by simp)
      exact absurd (UInt64.lt_of_lt_of_le hlt hle) (UInt64.lt_irrefl _)
    · exact List.mem_singleton.1 hr
  rw [nextNonce, hlast, hsame, Option.map_some]

end Countersign.PendingRecord
