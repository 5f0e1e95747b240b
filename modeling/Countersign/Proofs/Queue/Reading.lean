import Countersign.Proofs.Queue.Store
import Mathlib.Data.List.Forall2
import Mathlib.Data.List.ReduceOption

/-! What a queue reads from its file, whatever bytes are in it: the records of its lines, or the
first line that is faulty. Main statement: `load_outcome`. -/

namespace Countersign.PendingLog

/-! ### Lines -/

/-- The lines of a file. Each ends in a line feed, which the last may do without, and a carriage
return before the line feed is no part of the line. -/
inductive Splits : List UInt8 → List (List UInt8) → Prop
  | nil : Splits [] []
  | unended {line : List UInt8} (hne : line ≠ []) (hfeed : lineFeed ∉ line) : Splits line [line]
  | ended {line rest : List UInt8} {lines : List (List UInt8)} (hfeed : lineFeed ∉ line)
      (hreturn : line.getLast? ≠ some carriageReturn) (hrest : Splits rest lines) :
      Splits (line ++ lineFeed :: rest) (line :: lines)
  | returned {line rest : List UInt8} {lines : List (List UInt8)} (hfeed : lineFeed ∉ line)
      (hrest : Splits rest lines) :
      Splits (line ++ carriageReturn :: lineFeed :: rest) (line :: lines)

theorem withoutReturn_of_ne {line : List UInt8} (h : line.getLast? ≠ some carriageReturn) :
    withoutReturn line = line := if_neg h

theorem withoutReturn_append_return (line : List UInt8) :
    withoutReturn (line ++ [carriageReturn]) = line := by
  rw [withoutReturn, if_pos List.getLast?_concat, List.dropLast_concat]

theorem Splits.lines_eq {bytes : List UInt8} {ls : List (List UInt8)} (h : Splits bytes ls) :
    lines bytes = ls := by
  induction h with
  | nil => exact lines_of_none rfl
  | unended hne hfeed => rw [lines_of_none (cut?_eq_none_iff.2 hfeed), if_neg hne]
  | ended hfeed hreturn _ ih =>
    rw [lines_of_some (cut?_of_not_mem hfeed _), withoutReturn_of_ne hreturn, ih]
  | @returned line rest ls hfeed _ ih =>
    have hfeed' : lineFeed ∉ line ++ [carriageReturn] := by
      rw [List.mem_append, List.mem_singleton]
      exact not_or.2 ⟨hfeed, by decide⟩
    have hcut := cut?_of_not_mem hfeed' rest
    rw [List.append_assoc, List.singleton_append] at hcut
    rw [lines_of_some hcut, withoutReturn_append_return, ih]

theorem splits_lines (bytes : List UInt8) : Splits bytes (lines bytes) := by
  fun_induction lines bytes with
  | case1 bytes line rest h ih =>
    obtain ⟨rfl, hfeed⟩ := cut?_eq_some h
    by_cases hreturn : line.getLast? = some carriageReturn
    · obtain ⟨line, rfl⟩ := List.getLast?_eq_some_iff.1 hreturn
      rw [withoutReturn_append_return, List.append_assoc, List.singleton_append]
      exact .returned (fun hmem => hfeed (List.mem_append_left _ hmem)) ih
    · rw [withoutReturn_of_ne hreturn]
      exact .ended hfeed hreturn ih
  | case2 h => exact .nil
  | case3 bytes h hne => exact .unended hne (cut?_eq_none_iff.1 h)

theorem splits_iff {bytes : List UInt8} {ls : List (List UInt8)} :
    Splits bytes ls ↔ ls = lines bytes :=
  ⟨fun h => h.lines_eq.symm, fun h => h ▸ splits_lines bytes⟩

/-! ### One line -/

/-- The line is a text in UTF-8. -/
def IsText (line : List UInt8) : Prop := ∃ s : String, line = Text.utf8 s

/-- What a line says: nothing if there are only blanks, else the record that stands between the
blanks at its ends. -/
inductive Says (line : List UInt8) : Option PendingRecord → Prop
  | nothing {s : String} (htext : line = Text.utf8 s) (htrims : Text.Trims s.toList []) :
      Says line none
  | record {s : String} {cs : List Char} {r : PendingRecord} (htext : line = Text.utf8 s)
      (htrims : Text.Trims s.toList cs) (hne : cs ≠ []) (hread : PendingRecord.read? cs = some r) :
      Says line (some r)

variable {line : List UInt8} {ls : List (List UInt8)} {number : Nat}

theorem readLine_eq_notText_iff : readLine line = .error .notText ↔ ¬IsText line := by
  unfold readLine
  split
  · next htext =>
    refine iff_of_true rfl ?_
    rintro ⟨s, rfl⟩
    rw [Text.ofUtf8?_utf8] at htext
    cases htext
  · next s htext =>
    refine iff_of_false ?_ (not_not_intro ⟨s, Text.eq_utf8_of_ofUtf8? htext⟩)
    split
    · nofun
    · split <;> nofun

theorem readLine_utf8_eq_ok_iff {s : String} {o : Option PendingRecord} :
    readLine (Text.utf8 s) = .ok o ↔
      Text.trim s.toList = [] ∧ o = none ∨
      Text.trim s.toList ≠ [] ∧ ∃ r, PendingRecord.read? (Text.trim s.toList) = some r ∧
        o = some r := by
  cases htrim : Text.trim s.toList with
  | nil => simp [readLine, Text.ofUtf8?_utf8, htrim, eq_comm]
  | cons c cs =>
    rw [readLine_utf8_of_trim htrim]
    cases PendingRecord.read? (c :: cs) <;> simp [eq_comm]

theorem readLine_eq_ok_iff {o : Option PendingRecord} : readLine line = .ok o ↔ Says line o := by
  constructor
  · intro h
    obtain ⟨s, htext, -⟩ := exists_of_readLine h
    obtain rfl := Text.eq_utf8_of_ofUtf8? htext
    rcases readLine_utf8_eq_ok_iff.1 h with ⟨htrim, rfl⟩ | ⟨hne, r, hread, rfl⟩
    · exact .nothing rfl (Text.trims_iff.2 htrim)
    · exact .record rfl (Text.trims_trim _) hne hread
  · rintro (⟨rfl, htrims⟩ | ⟨rfl, htrims, hne, hread⟩)
    · exact readLine_utf8_eq_ok_iff.2 (.inl ⟨Text.trims_iff.1 htrims, rfl⟩)
    · obtain rfl := Text.trims_iff.1 htrims
      exact readLine_utf8_eq_ok_iff.2 (.inr ⟨hne, _, hread, rfl⟩)

theorem readLine_eq_notRecord_iff :
    readLine line = .error .notRecord ↔ IsText line ∧ ∀ o, ¬Says line o := by
  rw [← not_not (a := IsText line), ← readLine_eq_notText_iff]
  simp only [← readLine_eq_ok_iff]
  cases readLine line with
  | error fault => cases fault <;> simp
  | ok o => simp

/-! ### All lines -/

theorem reduceOption_cons (o : Option PendingRecord) (os : List (Option PendingRecord)) :
    (o :: os).reduceOption = o.toList ++ os.reduceOption := by
  cases o <;> rfl

/-- The records are read if every line says something, and in the order of the lines. -/
theorem readLines_eq_ok_iff {rs : List PendingRecord} :
    readLines number ls = .ok rs ↔ ∃ os, List.Forall₂ Says ls os ∧ rs = os.reduceOption := by
  induction ls generalizing number rs with
  | nil =>
    constructor
    · rintro ⟨rfl⟩
      exact ⟨[], .nil, rfl⟩
    · rintro ⟨os, hsaid, rfl⟩
      cases hsaid
      rfl
  | cons line ls ih =>
    rw [readLines]
    constructor
    · intro h
      cases hline : readLine line with
      | error fault => rw [hline] at h; cases h
      | ok o =>
        cases hrest : readLines (number + 1) ls with
        | error fault => rw [hline, hrest] at h; cases h
        | ok rest =>
          rw [hline, hrest] at h
          obtain ⟨os, hsaid, rfl⟩ := ih.1 hrest
          exact ⟨o :: os, .cons (readLine_eq_ok_iff.1 hline) hsaid,
            (Except.ok.inj h).symm.trans (reduceOption_cons o os).symm⟩
    · rintro ⟨os, hsaid, rfl⟩
      cases hsaid with
      | @cons _ o _ os hline hsaid =>
        rw [readLine_eq_ok_iff.2 hline, ih.2 ⟨os, hsaid, rfl⟩, reduceOption_cons]
        rfl

theorem exists_faulty_of_readLines {fault : Fault} (h : readLines number ls = .error fault) :
    ∃ before line after, ls = before ++ line :: after ∧ (∀ l ∈ before, ∃ o, Says l o) ∧
      readLine line = .error fault.fault ∧ fault.line = before.length + number := by
  induction ls generalizing number with
  | nil => cases h
  | cons line ls ih =>
    rw [readLines] at h
    cases hline : readLine line with
    | error f =>
      rw [hline] at h
      cases h
      exact ⟨[], line, ls, rfl, by simp, hline, (Nat.zero_add number).symm⟩
    | ok o =>
      cases hrest : readLines (number + 1) ls with
      | ok rest => rw [hline, hrest] at h; cases h
      | error f =>
        rw [hline, hrest] at h
        cases h
        obtain ⟨before, faulty, after, rfl, hbefore, hfaulty, hnumber⟩ := ih hrest
        refine ⟨line :: before, faulty, after, rfl, ?_, hfaulty, ?_⟩
        · rw [List.forall_mem_cons]
          exact ⟨⟨o, readLine_eq_ok_iff.1 hline⟩, hbefore⟩
        · rw [hnumber, List.length_cons]
          omega

theorem exists_readLines_iff :
    (∃ rs, readLines number ls = .ok rs) ↔ ∀ line ∈ ls, ∃ o, Says line o := by
  constructor
  · rintro ⟨rs, h⟩ line hline
    obtain ⟨os, hsaid, -⟩ := readLines_eq_ok_iff.1 h
    obtain ⟨i, hi, rfl⟩ := List.getElem_of_mem hline
    exact ⟨_, hsaid.get hi (hsaid.length_eq ▸ hi)⟩
  · intro h
    cases hread : readLines number ls with
    | ok rs => exact ⟨rs, rfl⟩
    | error fault =>
      obtain ⟨before, line, after, rfl, -, hfaulty, -⟩ := exists_faulty_of_readLines hread
      obtain ⟨o, ho⟩ := h line (by simp)
      rw [readLine_eq_ok_iff.2 ho] at hfaulty
      cases hfaulty

/-- The first faulty line is reported, by the number of lines up to it. -/
theorem readLines_eq_error_iff {fault : Fault} :
    readLines number ls = .error fault ↔
      ∃ before line after, ls = before ++ line :: after ∧ (∀ l ∈ before, ∃ o, Says l o) ∧
        readLine line = .error fault.fault ∧ fault.line = before.length + number := by
  refine ⟨exists_faulty_of_readLines, ?_⟩
  rintro ⟨before, line, after, rfl, hbefore, hline, hnumber⟩
  obtain ⟨rs, hrs⟩ := exists_readLines_iff.2 hbefore
  rw [readLines_append, hrs]
  show (readLines (number + before.length) (line :: after)).map (rs ++ ·) = _
  rw [readLines, hline, Nat.add_comm, ← hnumber]
  rfl

end Countersign.PendingLog

namespace Countersign.PendingQueue

variable {q : PendingQueue} {t : FileTree} {bytes : List UInt8}

theorem load_eq_error_iff (hfile : t.read q.path = .ok bytes) {e : QueueError} :
    q.load t = .error e ↔ ∃ fault, PendingLog.read bytes = .error fault ∧ e = q.errorOf fault := by
  rw [load_of_holds (.inl hfile)]
  cases PendingLog.read bytes <;> simp [Except.mapError, eq_comm]

/-- A file of any bytes is read exactly if each of its lines says something, and what is read are the
records of these lines in their order. Otherwise the first line that says nothing decides alone what
is reported: that it is no text, or the number it has among all lines. -/
theorem load_outcome (hfile : t.read q.path = .ok bytes) :
    ∃ ls, (∀ ls', PendingLog.Splits bytes ls' ↔ ls' = ls) ∧
      ((∃ rs, q.load t = .ok rs) ↔ ∀ line ∈ ls, ∃ o, PendingLog.Says line o) ∧
      (∀ rs, q.load t = .ok rs ↔
        ∃ os, List.Forall₂ PendingLog.Says ls os ∧ rs = os.reduceOption) ∧
      ∀ e, q.load t = .error e ↔
        ∃ before line after, ls = before ++ line :: after ∧
          (∀ l ∈ before, ∃ o, PendingLog.Says l o) ∧
          (¬PendingLog.IsText line ∧ e = .file q.path .notText ∨
            PendingLog.IsText line ∧ (∀ o, ¬PendingLog.Says line o) ∧
              e = .record q.path (before.length + 1)) := by
  refine ⟨PendingLog.lines bytes, fun _ => PendingLog.splits_iff, ?_, fun rs => ?_, fun e => ?_⟩
  · simp only [load_eq_ok_iff (.inl hfile)]
    exact PendingLog.exists_readLines_iff
  · rw [load_eq_ok_iff (.inl hfile)]
    exact PendingLog.readLines_eq_ok_iff
  · rw [load_eq_error_iff hfile]
    constructor
    · rintro ⟨⟨number, fault⟩, hread, rfl⟩
      obtain ⟨before, line, after, hlines, hbefore, hline, rfl⟩ :=
        PendingLog.readLines_eq_error_iff.1 hread
      refine ⟨before, line, after, hlines, hbefore, ?_⟩
      cases fault with
      | notText => exact .inl ⟨PendingLog.readLine_eq_notText_iff.1 hline, rfl⟩
      | notRecord =>
        obtain ⟨htext, hsaid⟩ := PendingLog.readLine_eq_notRecord_iff.1 hline
        exact .inr ⟨htext, hsaid, rfl⟩
    · rintro ⟨before, line, after, hlines, hbefore, ⟨htext, rfl⟩ | ⟨htext, hsaid, rfl⟩⟩
      · refine ⟨⟨before.length + 1, .notText⟩, PendingLog.readLines_eq_error_iff.2 ?_, rfl⟩
        exact ⟨before, line, after, hlines, hbefore,
          PendingLog.readLine_eq_notText_iff.2 htext, rfl⟩
      · refine ⟨⟨before.length + 1, .notRecord⟩, PendingLog.readLines_eq_error_iff.2 ?_, rfl⟩
        exact ⟨before, line, after, hlines, hbefore,
          PendingLog.readLine_eq_notRecord_iff.2 ⟨htext, hsaid⟩, rfl⟩

/-- A blank line, a record, and a line that breaks off. -/
def brokenLog : List UInt8 :=
  PendingLog.carriageReturn :: PendingLog.lineFeed ::
    (Text.utf8 sampleRecord.line ++ PendingLog.lineFeed :: Text.utf8 "broken")

theorem splits_brokenLog :
    PendingLog.Splits brokenLog [[], Text.utf8 sampleRecord.line, Text.utf8 "broken"] := by
  have hfeed := PendingLog.lineFeed_not_mem_line sampleRecord
  have hreturn : (Text.utf8 sampleRecord.line).getLast? ≠ some PendingLog.carriageReturn := by
    intro h
    have hle := sampleRecord.le_toNat_of_mem_utf8_line (List.mem_of_getLast? h)
    revert hle
    decide
  have hbroken : PendingLog.Splits (Text.utf8 "broken") [Text.utf8 "broken"] :=
    .unended (by decide) (by decide)
  exact .returned List.not_mem_nil (.ended hfeed hreturn hbroken)

theorem load_outcome_brokenLog :
    (sampleTree brokenLog).read sampleQueue.path = .ok brokenLog ∧
    sampleQueue.load (sampleTree brokenLog) = .error (.record sampleQueue.path 3) := by
  have hfile := read_sampleTree brokenLog
  obtain ⟨ls, hsplits, -, -, herror⟩ := load_outcome hfile
  obtain rfl := (hsplits _).1 splits_brokenLog
  have hrecord := PendingLog.readLine_append_line sampleRecord (s := "") (by simp)
  rw [show Text.utf8 "" = [] from rfl, List.nil_append] at hrecord
  have hbroken : PendingLog.readLine (Text.utf8 "broken") = .error .notRecord := by decide +kernel
  refine ⟨hfile, (herror _).2 ⟨[[], Text.utf8 sampleRecord.line], _, [], rfl, ?_, .inr ?_⟩⟩
  · intro line hline
    rcases List.mem_pair.1 hline with rfl | rfl
    · exact ⟨none, PendingLog.readLine_eq_ok_iff.1 PendingLog.readLine_nil⟩
    · exact ⟨some sampleRecord, PendingLog.readLine_eq_ok_iff.1 hrecord⟩
  · exact ⟨⟨_, rfl⟩, (PendingLog.readLine_eq_notRecord_iff.1 hbroken).2, rfl⟩

end Countersign.PendingQueue
