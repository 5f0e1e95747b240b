import Countersign.Queue.Log
import Countersign.Source
import Countersign.Storage.FileTree

/-! The queue of pending transactions in a file. -/

namespace Countersign

/-- A queue, which is kept in the file at `path`. -/
structure PendingQueue where
  path : String
deriving DecidableEq

/-- Why the file of a queue cannot be used. -/
inductive QueueError where
  | file (path : String) (fault : FileFault)
  | record (path : String) (line : Nat)
deriving DecidableEq

def QueueError.message : QueueError → String
  | file path _ => s!"pending store io {path}: {hostCause}"
  | record path line => s!"invalid pending record at line {line} in {path}: {hostCause}"

namespace PendingQueue

/-- What is reported for a faulty line. -/
def errorOf (q : PendingQueue) (fault : PendingLog.Fault) : QueueError :=
  match fault.fault with
  | .notText => .file q.path .notText
  | .notRecord => .record q.path fault.line

/-- All records in order. A file that is not there holds none. -/
def load (q : PendingQueue) (t : FileTree) : Except QueueError (List PendingRecord) :=
  match t.read q.path with
  | .ok bytes => (PendingLog.read bytes).mapError q.errorOf
  | .error .missing => .ok []
  | .error fault => .error (.file q.path fault)

/-- Adds a record at the end. -/
def append (q : PendingQueue) (t : FileTree) (r : PendingRecord) :
    Except QueueError Unit × FileTree :=
  let (result, t) := t.append q.path (PendingLog.entry r)
  (result.mapError (.file q.path), t)

def pendingFor (q : PendingQueue) (t : FileTree) (chain : UInt64) (sender : Address) :
    Except QueueError (List PendingRecord) := do
  return PendingRecord.pending (← q.load t) chain sender

def nextNonce (q : PendingQueue) (t : FileTree) (chain : UInt64) (sender : Address) :
    Except QueueError (Option UInt64) := do
  return PendingRecord.nextNonce (← q.load t) chain sender

/-! ### The queue as a source -/

def unavailable (e : QueueError) : SourceError := .unavailable "pending_tx_store" e.message

def queuedNonce (q : PendingQueue) (t : FileTree) (chain : UInt64) (sender : Address) :
    Answer (Option UInt64) :=
  (q.nextNonce t chain sender).mapError unavailable

def pendingCosts (q : PendingQueue) (t : FileTree) (chain : UInt64) (sender : Address) :
    Answer (List PendingCost) :=
  ((q.pendingFor t chain sender).map (List.map PendingRecord.cost)).mapError unavailable

end PendingQueue

end Countersign
