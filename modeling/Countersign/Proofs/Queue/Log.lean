import Countersign.Proofs.Queue.Line
import Countersign.Queue.Log

/-! What a record that is added to a log does to the records in it. It goes to the line that has no
end yet, so it is a record of its own exactly if nothing but blanks stands there. -/

namespace Countersign.PendingLog

/-! ### The line without end -/

/-- The lines that have their line feed, and what follows the last of them. -/
def parts (bytes : List UInt8) : List (List UInt8) × List UInt8 :=
  match _h : cut? bytes with
  | some (line, rest) => (withoutReturn line :: (parts rest).1, (parts rest).2)
  | none => ([], bytes)
termination_by bytes.length
decreasing_by
  all_goals
    rw [(cut?_eq_some _h).1]
    simp only [List.length_append, List.length_cons]
    omega

def ended (bytes : List UInt8) : List (List UInt8) := (parts bytes).1

def unended (bytes : List UInt8) : List UInt8 := (parts bytes).2

theorem parts_of_some {bytes line rest : List UInt8} (h : cut? bytes = some (line, rest)) :
    parts bytes = (withoutReturn line :: ended rest, unended rest) := by
  rw [parts]
  split
  · next h' => rw [h] at h'; cases h'; rfl
  · next h' => rw [h] at h'; cases h'

theorem parts_of_none {bytes : List UInt8} (h : cut? bytes = none) : parts bytes = ([], bytes) := by
  rw [parts]
  split
  · next h' => rw [h] at h'; cases h'
  · rfl

theorem ended_nil : ended [] = [] := by
  rw [ended, parts_of_none rfl]

theorem unended_nil : unended [] = [] := by
  rw [unended, parts_of_none rfl]

theorem lines_of_some {bytes line rest : List UInt8} (h : cut? bytes = some (line, rest)) :
    lines bytes = withoutReturn line :: lines rest := by
  rw [lines]
  split
  · next h' => rw [h] at h'; cases h'; rfl
  · next h' => rw [h] at h'; cases h'

theorem lines_of_none {bytes : List UInt8} (h : cut? bytes = none) :
    lines bytes = if bytes = [] then [] else [bytes] := by
  rw [lines]
  split
  · next h' => rw [h] at h'; cases h'
  · rfl

theorem cut?_append {bs line rest : List UInt8} (h : cut? bs = some (line, rest))
    (more : List UInt8) : cut? (bs ++ more) = some (line, rest ++ more) := by
  induction bs generalizing line with
  | nil => cases h
  | cons b bs ih =>
    rw [List.cons_append, cut?]
    rw [cut?] at h
    split at h
    · next hb => cases h; rw [if_pos hb]
    · next hb =>
      obtain ⟨p, hp, he⟩ := Option.map_eq_some_iff.1 h
      cases he
      rw [if_neg hb, ih hp, Option.map_some]

theorem cut?_eq_none_iff {bs : List UInt8} : cut? bs = none ↔ lineFeed ∉ bs := by
  induction bs with
  | nil => simp [cut?]
  | cons b bs ih =>
    rw [cut?, List.mem_cons, not_or, ← ih]
    split
    · next hb => simp [hb]
    · next hb => simp [Ne.symm hb]

theorem cut?_of_not_mem {line : List UInt8} (h : lineFeed ∉ line) (rest : List UInt8) :
    cut? (line ++ lineFeed :: rest) = some (line, rest) := by
  induction line with
  | nil => rfl
  | cons b line ih =>
    obtain ⟨hb, hline⟩ := not_or.1 (fun hm => h (List.mem_cons.2 hm))
    rw [List.cons_append, cut?, if_neg (Ne.symm hb), ih hline, Option.map_some]

theorem lines_eq (bytes : List UInt8) :
    lines bytes = ended bytes ++ if unended bytes = [] then [] else [unended bytes] := by
  fun_induction parts bytes with
  | case1 bytes line rest h ih =>
    rw [lines_of_some h, ended, unended, parts_of_some h, ih, List.cons_append]
  | case2 bytes h =>
    rw [lines_of_none h, ended, unended, parts_of_none h, List.nil_append]

theorem lineFeed_not_mem_unended (bytes : List UInt8) : lineFeed ∉ unended bytes := by
  fun_induction parts bytes with
  | case1 bytes line rest h ih => rwa [unended, parts_of_some h]
  | case2 bytes h =>
    rw [unended, parts_of_none h]
    exact cut?_eq_none_iff.1 h

/-- What is added to a file goes to the line that has no end yet. -/
theorem parts_append (bytes more : List UInt8) :
    parts (bytes ++ more) =
      (ended bytes ++ ended (unended bytes ++ more), unended (unended bytes ++ more)) := by
  fun_induction parts bytes with
  | case1 bytes line rest h ih =>
    have hended : ended bytes = withoutReturn line :: ended rest := by rw [ended, parts_of_some h]
    have hunended : unended bytes = unended rest := by rw [unended, parts_of_some h]
    rw [parts_of_some (cut?_append h more), ended, unended, ih, hended, hunended, List.cons_append]
  | case2 bytes h =>
    have hended : ended bytes = [] := by rw [ended, parts_of_none h]
    have hunended : unended bytes = bytes := by rw [unended, parts_of_none h]
    rw [hended, hunended, List.nil_append]
    rfl

theorem parts_append_line {line : List UInt8} (hline : lineFeed ∉ line) (bytes : List UInt8) :
    parts (bytes ++ (line ++ [lineFeed])) =
      (ended bytes ++ [withoutReturn (unended bytes ++ line)], []) := by
  have hmem : lineFeed ∉ unended bytes ++ line := by
    simp [hline, lineFeed_not_mem_unended]
  have hparts := parts_of_some (cut?_of_not_mem hmem [])
  have hended : ended (unended bytes ++ line ++ [lineFeed]) =
      [withoutReturn (unended bytes ++ line)] := by
    rw [ended, hparts, ended_nil]
  have hunended : unended (unended bytes ++ line ++ [lineFeed]) = [] := by
    rw [unended, hparts, unended_nil]
  rw [parts_append, ← List.append_assoc, hended, hunended]

theorem parts_append_of_not_mem {more : List UInt8} (hmore : lineFeed ∉ more)
    (bytes : List UInt8) : parts (bytes ++ more) = (ended bytes, unended bytes ++ more) := by
  have hmem : lineFeed ∉ unended bytes ++ more := by
    simp [hmore, lineFeed_not_mem_unended]
  have hparts := parts_of_none (cut?_eq_none_iff.2 hmem)
  have hended : ended (unended bytes ++ more) = [] := by rw [ended, hparts]
  have hunended : unended (unended bytes ++ more) = unended bytes ++ more := by
    rw [unended, hparts]
  rw [parts_append, hended, hunended, List.append_nil]

theorem lines_append {line : List UInt8} (hline : lineFeed ∉ line) (bytes : List UInt8) :
    lines (bytes ++ (line ++ [lineFeed])) =
      ended bytes ++ [withoutReturn (unended bytes ++ line)] := by
  rw [lines_eq, ended, unended, parts_append_line hline, if_pos rfl, List.append_nil]

/-! ### Records -/

theorem readLines_append (number : Nat) (first last : List (List UInt8)) :
    readLines number (first ++ last) =
      (readLines number first).bind fun rs =>
        (readLines (number + first.length) last).map (rs ++ ·) := by
  induction first generalizing number with
  | nil =>
    show readLines number last = (readLines number last).map ([] ++ ·)
    cases readLines number last <;> rfl
  | cons line first ih =>
    rw [List.cons_append, readLines, readLines]
    cases readLine line with
    | error fault => rfl
    | ok r =>
      have hnumber : number + 1 + first.length = number + (first.length + 1) := by omega
      simp only [ih, hnumber, List.length_cons]
      cases readLines (number + 1) first with
      | error fault => rfl
      | ok rs =>
        cases readLines (number + (first.length + 1)) last with
        | error fault => rfl
        | ok rs' => exact congrArg Except.ok (List.append_assoc _ _ _).symm

/-- What follows the last line feed is blank, so a record that is added stands alone on its line. -/
def endsBlank (bytes : List UInt8) : Bool :=
  (Text.ofUtf8? (unended bytes)).any fun s => s.toList.all Text.isBlank

theorem read_nil : read [] = .ok [] := by
  rw [read, lines_of_none rfl]
  rfl

theorem endsBlank_nil : endsBlank [] = true := by
  rw [endsBlank, unended_nil]
  rfl

variable (r : PendingRecord)

theorem lineFeed_not_mem_line : lineFeed ∉ Text.utf8 r.line := by
  intro h
  have hle := r.le_toNat_of_mem_utf8_line h
  revert hle
  decide

theorem withoutReturn_append_line (bytes : List UInt8) :
    withoutReturn (bytes ++ Text.utf8 r.line) = bytes ++ Text.utf8 r.line := by
  rw [withoutReturn, if_neg]
  intro h
  have hne : Text.utf8 r.line ≠ [] := by
    intro hnil
    have hempty : r.line = "" :=
      Option.some.inj ((Text.ofUtf8?_utf8 r.line).symm.trans (hnil ▸ Text.ofUtf8?_utf8 ""))
    have hhead := r.head?_line
    rw [hempty] at hhead
    cases hhead
  obtain ⟨b, hb⟩ := Option.isSome_iff_exists.1 (List.getLast?_isSome.2 hne)
  rw [List.getLast?_append, hb] at h
  have hle := r.le_toNat_of_mem_utf8_line (List.mem_of_getLast? hb)
  cases h
  revert hle
  decide

theorem readLines_append_singleton {number : Nat} {first : List (List UInt8)}
    {before : List PendingRecord} (h : readLines number first = .ok before) (line : List UInt8) :
    readLines number (first ++ [line]) =
      match readLine line with
      | .error fault => .error ⟨number + first.length, fault⟩
      | .ok o => .ok (before ++ o.toList) := by
  rw [readLines_append, h]
  show (readLines (number + first.length) [line]).map (before ++ ·) = _
  rw [readLines]
  cases readLine line with
  | error fault => rfl
  | ok o =>
    show Except.ok (before ++ (o.toList ++ [])) = .ok (before ++ o.toList)
    rw [List.append_nil]

/-- A line that is read is a text, and blank if it has no record. -/
theorem exists_of_readLine {line : List UInt8} {o : Option PendingRecord}
    (h : readLine line = .ok o) :
    ∃ s, Text.ofUtf8? line = some s ∧ (o = none ↔ ∀ c ∈ s.toList, Text.isBlank c = true) := by
  unfold readLine at h
  split at h
  · cases h
  · next s hs =>
    refine ⟨s, hs, ?_⟩
    rw [← Text.trim_eq_nil_iff]
    split at h
    · next hnil => cases h; simp [hnil]
    · next hne =>
      split at h
      · cases h; exact ⟨nofun, fun hnil => (hne hnil).elim⟩
      · cases h

theorem readLine_nil : readLine [] = .ok none := rfl

theorem readLine_utf8_of_trim {s : String} {c : Char} {cs : List Char}
    (h : Text.trim s.toList = c :: cs) :
    readLine (Text.utf8 s) =
      match PendingRecord.read? (c :: cs) with
      | some r => .ok (some r)
      | none => .error .notRecord := by
  cases hread : PendingRecord.read? (c :: cs) <;> simp [readLine, Text.ofUtf8?_utf8, h, hread]

theorem trim_append_line {s : String} (hs : ∀ c ∈ s.toList, Text.isBlank c = true)
    {cs : List Char} (hfirst : cs.head? = some '{') (hlast : cs.getLast? = some '}') :
    Text.trim (s.toList ++ cs) = cs := by
  rw [← List.append_nil (s.toList ++ cs)]
  refine Text.trim_append hs (by simp) (fun c hc => ?_) fun c hc => ?_
  · rw [hfirst] at hc
    cases hc
    decide
  · rw [hlast] at hc
    cases hc
    decide

/-- A record is read from its line, also behind blanks. -/
theorem readLine_append_line {s : String} (hs : ∀ c ∈ s.toList, Text.isBlank c = true) :
    readLine (Text.utf8 s ++ Text.utf8 r.line) = .ok (some r) := by
  have htrim := trim_append_line hs r.head?_line r.getLast?_line
  obtain ⟨cs, hline⟩ := List.head?_eq_some_iff.1 r.head?_line
  have hread := r.read?_line
  rw [← String.toList_append, hline] at htrim
  rw [hline] at hread
  rw [← Text.utf8_append, readLine_utf8_of_trim htrim, hread]

/-- No record is read from two lines that run into one. -/
theorem readLine_append_line_append_line {s : String}
    (hs : ∀ c ∈ s.toList, Text.isBlank c = true) (r' : PendingRecord) :
    readLine (Text.utf8 s ++ Text.utf8 r.line ++ Text.utf8 r'.line) = .error .notRecord := by
  have hfirst : (r.line.toList ++ r'.line.toList).head? = some '{' := by
    rw [List.head?_append, r.head?_line]
    rfl
  have hlast : (r.line.toList ++ r'.line.toList).getLast? = some '}' := by
    rw [List.getLast?_append, r'.getLast?_line]
    rfl
  have htrim := trim_append_line hs hfirst hlast
  obtain ⟨cs, hlines⟩ := List.head?_eq_some_iff.1 hfirst
  have hread := r.read?_line_append_line r'
  have hall : (s ++ r.line ++ r'.line).toList = s.toList ++ (r.line.toList ++ r'.line.toList) := by
    simp
  rw [← hall, hlines] at htrim
  rw [hlines] at hread
  rw [← Text.utf8_append, ← Text.utf8_append, readLine_utf8_of_trim htrim, hread]

theorem read_of_ended {bytes : List UInt8} {before : List PendingRecord}
    (h : readLines 1 (ended bytes) = .ok before) :
    read bytes =
      match readLine (unended bytes) with
      | .error fault => .error ⟨1 + (ended bytes).length, fault⟩
      | .ok o => .ok (before ++ o.toList) := by
  rw [read, lines_eq]
  split
  · next hnil =>
    rw [List.append_nil, h, hnil, readLine_nil]
    exact congrArg Except.ok (List.append_nil before).symm
  · exact readLines_append_singleton h (unended bytes)

/-- What is read from a log is read from the lines that are ended and from the one that is not. -/
theorem exists_of_read {bytes : List UInt8} {rs : List PendingRecord} (h : read bytes = .ok rs) :
    ∃ before o, readLines 1 (ended bytes) = .ok before ∧ readLine (unended bytes) = .ok o ∧
      rs = before ++ o.toList := by
  cases hended : readLines 1 (ended bytes) with
  | error fault =>
    rw [read, lines_eq, readLines_append, hended] at h
    cases h
  | ok before =>
    rw [read_of_ended hended] at h
    cases hline : readLine (unended bytes) with
    | error fault => rw [hline] at h; cases h
    | ok o =>
      rw [hline] at h
      exact ⟨before, o, rfl, rfl, (Except.ok.inj h).symm⟩

theorem read_append_entry_of_ended {bytes : List UInt8} {before : List PendingRecord}
    (h : readLines 1 (ended bytes) = .ok before) :
    read (bytes ++ entry r) =
      match readLine (unended bytes ++ Text.utf8 r.line) with
      | .error fault => .error ⟨1 + (ended bytes).length, fault⟩
      | .ok o => .ok (before ++ o.toList) := by
  rw [read, entry, lines_append (lineFeed_not_mem_line r), withoutReturn_append_line,
    readLines_append_singleton h]

/-- A record that is added to a log is read behind the others exactly if the log ends blank. -/
theorem read_append_entry {bytes : List UInt8} {rs : List PendingRecord}
    (h : read bytes = .ok rs) :
    read (bytes ++ entry r) = .ok (rs ++ [r]) ↔ endsBlank bytes = true := by
  obtain ⟨before, o, hbefore, hline, rfl⟩ := exists_of_read h
  obtain ⟨s, hs, ho⟩ := exists_of_readLine hline
  have hbytes : unended bytes = Text.utf8 s := Text.eq_utf8_of_ofUtf8? hs
  have hends : endsBlank bytes = true ↔ o = none := by
    rw [endsBlank, hs, ho]
    simp
  rw [hends, read_append_entry_of_ended r hbefore, hbytes]
  constructor
  · intro hread
    cases hmerged : readLine (Text.utf8 s ++ Text.utf8 r.line) with
    | error fault => rw [hmerged] at hread; cases hread
    | ok merged =>
      -- One line has one record at most, which leaves no room for two.
      rw [hmerged] at hread
      have hlength := congrArg List.length (Except.ok.inj hread)
      cases o with
      | none => rfl
      | some r₀ => cases merged <;> simp at hlength
  · rintro rfl
    rw [readLine_append_line r (ho.1 rfl)]
    simp

/-- Without its line feed a record is read as well, and it runs into the next one. -/
theorem read_append_line {bytes : List UInt8} {rs : List PendingRecord}
    (h : read bytes = .ok rs) (hblank : endsBlank bytes = true) :
    read (bytes ++ Text.utf8 r.line) = .ok (rs ++ [r]) ∧
    ∀ r', read (bytes ++ Text.utf8 r.line ++ entry r') =
      .error ⟨(ended bytes).length + 1, .notRecord⟩ := by
  obtain ⟨before, o, hbefore, hline, rfl⟩ := exists_of_read h
  obtain ⟨s, hs, ho⟩ := exists_of_readLine hline
  have hbytes : unended bytes = Text.utf8 s := Text.eq_utf8_of_ofUtf8? hs
  have hblanks : ∀ c ∈ s.toList, Text.isBlank c = true := by
    simpa [endsBlank, hs] using hblank
  obtain rfl : o = none := ho.2 hblanks
  have hparts : parts (bytes ++ Text.utf8 r.line) = (ended bytes, unended bytes ++ _) :=
    parts_append_of_not_mem (lineFeed_not_mem_line r) bytes
  have hended : ended (bytes ++ Text.utf8 r.line) = ended bytes := by rw [ended, hparts]
  have hunended : unended (bytes ++ Text.utf8 r.line) = Text.utf8 s ++ Text.utf8 r.line := by
    rw [unended, hparts, hbytes]
  constructor
  · rw [read_of_ended (by rw [hended, hbefore]), hunended, readLine_append_line r hblanks]
    simp
  · intro r'
    rw [read_append_entry_of_ended r' (by rw [hended, hbefore]), hended, hunended,
      readLine_append_line_append_line r hblanks r', Nat.add_comm]

theorem endsBlank_append_entry (bytes : List UInt8) : endsBlank (bytes ++ entry r) = true := by
  rw [endsBlank, unended, entry, parts_append_line (lineFeed_not_mem_line r)]
  rfl

theorem read_entry : read (entry r) = .ok [r] := by
  have h := (read_append_entry r read_nil).2 endsBlank_nil
  rwa [List.nil_append, List.nil_append] at h

theorem endsBlank_entry : endsBlank (entry r) = true := by
  have h := endsBlank_append_entry r []
  rwa [List.nil_append] at h

end Countersign.PendingLog
