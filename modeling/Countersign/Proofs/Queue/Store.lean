import Countersign.Proofs.Queue.Log
import Countersign.Proofs.Queue.Pending
import Countersign.Proofs.Storage.Append
import Countersign.Queue.Store

/-! What a queue keeps of the records that are added to it. Main statements: `load_appendAll` for a
queue that starts without a file, and `load_append_iff` for one with any file that can be read. -/

namespace Countersign.PendingQueue

variable {q : PendingQueue} {t t' : FileTree} {r : PendingRecord} {rs : List PendingRecord}
  {bytes : List UInt8}

theorem read_append (hholds : t.Holds q.path bytes) (h : q.append t r = (.ok (), t')) :
    t'.read q.path = .ok (bytes ++ PendingLog.entry r) := by
  refine FileTree.read_append hholds ?_
  unfold append at h
  cases happend : t.append q.path (PendingLog.entry r) with
  | mk result t₁ =>
    rw [happend] at h
    cases result with
    | error fault => cases h
    | ok u => cases h; rfl

theorem load_of_holds (h : t.Holds q.path bytes) :
    q.load t = (PendingLog.read bytes).mapError q.errorOf := by
  rcases h with hread | ⟨habsent, rfl⟩
  · rw [load, hread]
  · rw [load, habsent.missing, PendingLog.read_nil]
    rfl

theorem load_eq_ok_iff (h : t.Holds q.path bytes) :
    q.load t = .ok rs ↔ PendingLog.read bytes = .ok rs := by
  rw [load_of_holds h]
  cases PendingLog.read bytes <;> simp [Except.mapError]

def sampleQueue : PendingQueue := ⟨"pending/queue.jsonl"⟩

def sampleSender : Address := ⟨.replicate _ 0xAA⟩

def sampleRecord : PendingRecord := .ofNonce 1 sampleSender 5

/-- The queue's folder with a file that holds `bytes`. -/
def sampleTree (bytes : List UInt8) : FileTree :=
  ⟨[(["pending", "queue.jsonl"], bytes)], [["pending"]]⟩

theorem read_sampleTree (bytes : List UInt8) :
    (sampleTree bytes).read sampleQueue.path = .ok bytes := rfl

theorem exists_append_sampleTree (bytes : List UInt8) (r : PendingRecord) :
    ∃ t', sampleQueue.append (sampleTree bytes) r = (.ok (), t') := ⟨_, rfl⟩

/-- After a record is added to a file that could be read, the file holds the record behind the
others exactly if what followed its last line feed was blank. -/
theorem load_append_iff (hread : t.read q.path = .ok bytes) (hload : q.load t = .ok rs)
    (happend : q.append t r = (.ok (), t')) :
    q.load t' = .ok (rs ++ [r]) ↔ PendingLog.endsBlank bytes = true := by
  have hread' := read_append (.inl hread) happend
  have hrecords : PendingLog.read bytes = .ok rs := (load_eq_ok_iff (.inl hread)).1 hload
  rw [load_eq_ok_iff (.inl hread')]
  exact PendingLog.read_append_entry r hrecords

theorem load_append_sampleEntry :
    ∃ t', sampleQueue.append (sampleTree (PendingLog.entry sampleRecord)) sampleRecord =
        (.ok (), t') ∧
      sampleQueue.load t' = .ok [sampleRecord, sampleRecord] := by
  have hread := read_sampleTree (PendingLog.entry sampleRecord)
  have hload := (load_eq_ok_iff (.inl hread)).2 (PendingLog.read_entry sampleRecord)
  obtain ⟨t', happend⟩ := exists_append_sampleTree (PendingLog.entry sampleRecord) sampleRecord
  exact ⟨t', happend,
    (load_append_iff hread hload happend).2 (PendingLog.endsBlank_entry sampleRecord)⟩

/-- A record without its line feed, as an addition leaves it that stops between the two, can be
read. The next record that is added ends up on the same line, and the file cannot be read any
more. -/
theorem load_append_unended (hrecords : PendingLog.read bytes = .ok rs)
    (hblank : PendingLog.endsBlank bytes = true) {r' : PendingRecord}
    (hread : t.read q.path = .ok (bytes ++ Text.utf8 r.line))
    (happend : q.append t r' = (.ok (), t')) :
    q.load t = .ok (rs ++ [r]) ∧
    q.load t' = .error (.record q.path ((PendingLog.ended bytes).length + 1)) := by
  obtain ⟨hline, hmerged⟩ := PendingLog.read_append_line r hrecords hblank
  have hread' := read_append (.inl hread) happend
  constructor
  · exact (load_eq_ok_iff (.inl hread)).2 hline
  · rw [load_of_holds (.inl hread'), hmerged r']
    rfl

theorem load_append_sampleLine :
    sampleQueue.load (sampleTree (Text.utf8 sampleRecord.line)) = .ok [sampleRecord] ∧
    ∃ t', sampleQueue.append (sampleTree (Text.utf8 sampleRecord.line)) sampleRecord =
        (.ok (), t') ∧
      sampleQueue.load t' = .error (.record sampleQueue.path 1) := by
  obtain ⟨t', happend⟩ := exists_append_sampleTree (Text.utf8 sampleRecord.line) sampleRecord
  have hread : (sampleTree (Text.utf8 sampleRecord.line)).read sampleQueue.path =
      .ok ([] ++ Text.utf8 sampleRecord.line) := by
    rw [List.nil_append, read_sampleTree]
  obtain ⟨hload, hload'⟩ :=
    load_append_unended PendingLog.read_nil PendingLog.endsBlank_nil hread happend
  rw [PendingLog.ended_nil] at hload'
  exact ⟨hload, t', happend, hload'⟩

/-! ### Many records -/

/-- Adds records one after the other, up to the first that cannot be added. -/
def appendAll (q : PendingQueue) (t : FileTree) : List PendingRecord → Except QueueError FileTree
  | [] => .ok t
  | r :: rs => (q.append t r).1.bind fun _ => q.appendAll (q.append t r).2 rs

theorem exists_of_appendAll_cons (h : q.appendAll t (r :: rs) = .ok t') :
    ∃ t₁, q.append t r = (.ok (), t₁) ∧ q.appendAll t₁ rs = .ok t' := by
  rw [appendAll] at h
  cases happend : q.append t r with
  | mk result t₁ =>
    rw [happend] at h
    cases result with
    | error e => cases h
    | ok u => exact ⟨t₁, rfl, h⟩

/-- The file holds the records, and the next one will stand on a line of its own. -/
def Keeps (q : PendingQueue) (t : FileTree) (rs : List PendingRecord) : Prop :=
  ∃ bytes, t.Holds q.path bytes ∧ PendingLog.read bytes = .ok rs ∧
    PendingLog.endsBlank bytes = true

theorem keeps_of_absent (h : t.Absent q.path) : q.Keeps t [] :=
  ⟨[], .inr ⟨h, rfl⟩, PendingLog.read_nil, PendingLog.endsBlank_nil⟩

theorem Keeps.append (hkeeps : q.Keeps t rs) (h : q.append t r = (.ok (), t')) :
    q.Keeps t' (rs ++ [r]) := by
  obtain ⟨bytes, hholds, hread, hblank⟩ := hkeeps
  exact ⟨bytes ++ PendingLog.entry r, .inl (read_append hholds h),
    (PendingLog.read_append_entry r hread).2 hblank, PendingLog.endsBlank_append_entry r bytes⟩

theorem Keeps.appendAll {more : List PendingRecord} (hkeeps : q.Keeps t rs)
    (h : q.appendAll t more = .ok t') : q.Keeps t' (rs ++ more) := by
  induction more generalizing t rs with
  | nil =>
    cases h
    rwa [List.append_nil]
  | cons r more ih =>
    obtain ⟨t₁, happend, hmore⟩ := exists_of_appendAll_cons h
    have hkeeps₁ := ih (hkeeps.append happend) hmore
    rwa [List.append_assoc, List.singleton_append] at hkeeps₁

theorem Keeps.load (h : q.Keeps t rs) : q.load t = .ok rs := by
  obtain ⟨bytes, hholds, hread, -⟩ := h
  exact (load_eq_ok_iff hholds).2 hread

section

variable {chain : UInt64} {sender : Address}

theorem pendingFor_of_load (h : q.load t = .ok rs) :
    q.pendingFor t chain sender = .ok (PendingRecord.pending rs chain sender) := by
  rw [pendingFor, h]
  rfl

theorem nextNonce_of_load (h : q.load t = .ok rs) :
    q.nextNonce t chain sender = .ok (PendingRecord.nextNonce rs chain sender) := by
  rw [nextNonce, h]
  rfl

theorem pendingCosts_of_load (h : q.load t = .ok rs) :
    q.pendingCosts t chain sender =
      .ok ((PendingRecord.pending rs chain sender).map PendingRecord.cost) := by
  rw [pendingCosts, pendingFor_of_load h]
  rfl

end

/-- Records that are added to a queue without a file are all there, in order, whatever their texts
are. Of each account the latest record of every nonce is pending if it is not completed, and the
next nonce follows the highest one that is pending. -/
theorem load_appendAll (habsent : t.Absent q.path) (h : q.appendAll t rs = .ok t') :
    q.load t' = .ok rs ∧ ∀ chain sender, ∃ queue,
      q.pendingFor t' chain sender = .ok queue ∧
      PendingRecord.IsQueue rs chain sender queue ∧
      (∃ costs, q.pendingCosts t' chain sender = .ok costs ∧
        costs.map (·.nonce) = queue.map (·.nonce)) ∧
      ∃ next, q.nextNonce t' chain sender = .ok next ∧ (next = none ↔ queue = []) ∧
        ∀ r ∈ queue, (∀ s ∈ queue, s.nonce ≤ r.nonce) →
          next.map (·.toNat) = some (min (r.nonce.toNat + 1) (UInt64.size - 1)) := by
  have hkeeps : q.Keeps t' ([] ++ rs) := (keeps_of_absent habsent).appendAll h
  have hload : q.load t' = .ok rs := hkeeps.load
  refine ⟨hload, fun chain sender => ?_⟩
  refine ⟨_, pendingFor_of_load hload, PendingRecord.isQueue_pending rs chain sender,
    ⟨_, pendingCosts_of_load hload, ?_⟩, _, nextNonce_of_load hload,
    PendingRecord.nextNonce_eq_none_iff, fun r hr hhighest => ?_⟩
  · rw [List.map_map]
    rfl
  · rw [PendingRecord.nextNonce_of_highest hr hhighest, Option.map_some, Word.toNat_next]

/-- A replaced, a replacing and a completed record. -/
def sampleRecords : List PendingRecord :=
  [{ sampleRecord with value := some "1\n\"2\u00e9" }, sampleRecord,
    { PendingRecord.ofNonce 1 sampleSender 6 with completed := true }]

theorem load_appendAll_sampleRecords :
    FileTree.empty.Absent sampleQueue.path ∧
    ∃ t', sampleQueue.appendAll FileTree.empty sampleRecords = .ok t' ∧
      sampleQueue.load t' = .ok sampleRecords ∧
      ∃ queue, sampleQueue.pendingFor t' 1 sampleSender = .ok queue ∧
        PendingRecord.IsQueue sampleRecords 1 sampleSender queue := by
  have habsent : FileTree.empty.Absent sampleQueue.path := ⟨rfl, fun _ _ => rfl⟩
  obtain ⟨t', h⟩ : ∃ t', sampleQueue.appendAll FileTree.empty sampleRecords = .ok t' := ⟨_, rfl⟩
  obtain ⟨hload, hqueues⟩ := load_appendAll habsent h
  obtain ⟨queue, hpending, hqueue, -⟩ := hqueues 1 sampleSender
  exact ⟨habsent, t', h, hload, queue, hpending, hqueue⟩

end Countersign.PendingQueue
