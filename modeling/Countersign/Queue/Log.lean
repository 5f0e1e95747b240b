import Countersign.Queue.Line
import Countersign.Table
import Countersign.Text.Blank
import Countersign.Text.Utf8

/-! The log of a queue: one record to a line, and new records at the end. Blank lines are passed
over. The latest record of a transaction counts, so one that is replaced or completed gets another
line. -/

namespace Countersign

namespace PendingLog

def lineFeed : UInt8 := 10

def carriageReturn : UInt8 := 13

/-- The line without the carriage return that it may end in. -/
def withoutReturn (line : List UInt8) : List UInt8 :=
  if line.getLast? = some carriageReturn then line.dropLast else line

/-- What stands before the first line feed and what follows it, if there is one. -/
def cut? : List UInt8 → Option (List UInt8 × List UInt8)
  | [] => none
  | b :: bs => if b = lineFeed then some ([], bs) else (cut? bs).map fun p => (b :: p.1, p.2)

theorem cut?_eq_some {bs line rest : List UInt8} (h : cut? bs = some (line, rest)) :
    bs = line ++ lineFeed :: rest ∧ lineFeed ∉ line := by
  induction bs generalizing line with
  | nil => cases h
  | cons b bs ih =>
    simp only [cut?] at h
    split at h
    · next hb => cases h; simp [hb]
    · next hb =>
      obtain ⟨p, hp, he⟩ := Option.map_eq_some_iff.1 h
      cases he
      obtain ⟨rfl, hn⟩ := ih hp
      simp [hn, Ne.symm hb]

/-- The lines of a file. A line ends in a line feed, before which a carriage return is dropped; what
follows the last line feed is a line too unless it is empty. -/
def lines (bytes : List UInt8) : List (List UInt8) :=
  match _h : cut? bytes with
  | some (line, rest) => withoutReturn line :: lines rest
  | none => if bytes = [] then [] else [bytes]
termination_by bytes.length
decreasing_by
  rw [(cut?_eq_some _h).1]
  simp only [List.length_append, List.length_cons]
  omega

/-- What is wrong with a line. -/
inductive LineFault where
  | notText
  | notRecord
deriving DecidableEq

/-- The record in a line, if the line is not blank. -/
def readLine (line : List UInt8) : Except LineFault (Option PendingRecord) :=
  match Text.ofUtf8? line with
  | none => .error .notText
  | some s =>
    match Text.trim s.toList with
    | [] => .ok none
    | cs =>
      match PendingRecord.read? cs with
      | some r => .ok (some r)
      | none => .error .notRecord

/-- The first faulty line of a log, lines being counted from one. -/
structure Fault where
  line : Nat
  fault : LineFault
deriving DecidableEq

/-- The records in lines of which the first has the number `number`. -/
def readLines (number : Nat) : List (List UInt8) → Except Fault (List PendingRecord)
  | [] => .ok []
  | line :: lines =>
    match readLine line with
    | .error fault => .error ⟨number, fault⟩
    | .ok r => (readLines (number + 1) lines).map (r.toList ++ ·)

/-- The records of a log in order. -/
def read (bytes : List UInt8) : Except Fault (List PendingRecord) := readLines 1 (lines bytes)

/-- What is added to a log for a record. -/
def entry (r : PendingRecord) : List UInt8 := Text.utf8 r.line ++ [lineFeed]

end PendingLog

namespace PendingRecord

/-- The latest records of one account, by nonce. -/
def latest (records : List PendingRecord) (chain : UInt64) (sender : Address) :
    Table UInt64 PendingRecord :=
  let own := records.filter fun r => r.chainId = chain && r.sender = sender
  Table.ofList (own.map fun r => (r.nonce, r))

/-- The records of one account that are still pending, by ascending nonce. -/
def pending (records : List PendingRecord) (chain : UInt64) (sender : Address) :
    List PendingRecord :=
  (latest records chain sender).values.filter fun r => !r.completed

/-- The nonce after the highest pending one, if anything is pending. -/
def nextNonce (records : List PendingRecord) (chain : UInt64) (sender : Address) : Option UInt64 :=
  (pending records chain sender).getLast?.map fun r => Word.next r.nonce

end PendingRecord

end Countersign
