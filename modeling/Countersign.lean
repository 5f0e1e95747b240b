import Countersign.Fee.Priority
import Countersign.Queue.Store
import Countersign.Rule.Document
import Countersign.Session.Command
import Countersign.Settings.Document
import Countersign.Proofs.Session.History
import Countersign.Proofs.Session.Acknowledgement
import Countersign.Proofs.Session.Fresh
import Countersign.Proofs.Session.Nonce
import Countersign.Proofs.Session.Verdict
import Countersign.Proofs.Session.Danger
import Countersign.Proofs.Draft.Fingerprint
import Countersign.Proofs.Snapshot.Gather
import Countersign.Proofs.Snapshot.Questions
import Countersign.Proofs.Session.Superseded
import Countersign.Proofs.Json.Compact
import Countersign.Proofs.Json.Field
import Countersign.Proofs.Queue.Line
import Countersign.Proofs.Queue.Log
import Countersign.Proofs.Queue.Pending
import Countersign.Proofs.Storage.Append
import Countersign.Proofs.Queue.Store
import Countersign.Proofs.Session.InPlace
import Countersign.Proofs.Session.Interleaving
import Countersign.Proofs.Session.Refusal
import Countersign.Proofs.Json.Number
import Countersign.Proofs.Json.Pretty
import Countersign.Proofs.Rule.Sound
import Countersign.Proofs.Rule.Document
import Countersign.Proofs.Gas.Unbounded
import Countersign.Proofs.Binary64.Nearest
import Countersign.Proofs.Binary64.Rounding
import Countersign.Proofs.Settings.Policy
import Countersign.Proofs.Settings.Headroom
import Countersign.Proofs.Gas.Bounds
import Countersign.Proofs.Gas.Covered
import Countersign.Proofs.Rule.Evaluation
import Countersign.Proofs.Rule.Integer
import Countersign.Proofs.Rule.Enabled
import Countersign.Proofs.Risk.Order
import Countersign.Proofs.Session.AcknowledgeAll
import Countersign.Proofs.Session.Switch
import Countersign.Proofs.Check.Findings
import Countersign.Proofs.Check.Plan
import Countersign.Proofs.Session.OwnNonce
import Countersign.Proofs.Queue.Reading
import Countersign.Proofs.Quantity.Grammar
import Countersign.Proofs.Fee.Priority
import Countersign.Proofs.Gas.Strict
import Countersign.Proofs.Queue.Cost
import Countersign.Proofs.Gas.RatioText
