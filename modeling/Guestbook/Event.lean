import Guestbook.Error
import Guestbook.Page

/-!
# Log events

Whatever the board, its store, its gate and its cache report while they work. An event is a value;
its severity, wording and fields are functions of it.

## Main definitions
- `Event`: what is reported
- `Event.severity`, `Event.text`, `Event.fields`: how it is written
-/

namespace Guestbook

/-- How serious an event is. -/
inductive Severity where
  | debug
  | info
  | warn
  deriving DecidableEq, Repr

/-- The word for a severity. -/
def Severity.text : Severity → String
  | .debug => "debug"
  | .info => "info"
  | .warn => "warn"

/-- The value of a field of an event. -/
inductive Field where
  | number (n : Int)
  | text (s : String)
  deriving DecidableEq, Repr

/-- The type wanted of a bin. -/
inductive BinType where
  | int
  | str
  deriving DecidableEq, Repr

/-- Something worth reporting. -/
inductive Event where
  /-- A bin is missing and read as zero or empty. -/
  | binMissing (bin : String) (wanted : BinType)
  /-- A bin has the wrong type and is read as zero or empty. -/
  | binMistyped (bin : String) (wanted : BinType) (found : String)
  | connectionDropped
  | attemptFailed (cause : BoardError)
  | firstAttemptFailed (cause : BoardError)
  | attemptDeferred
  | replacedConnectionClosed
  | connectionReady
  | connectionReestablished
  | connectionClosed
  | entryTooCostly (key : String) (cost maxCost : Cost)
  | entryEvicted (key : String) (cost : Cost)
  | entryDeclined (key : String) (cost : Cost)
  | messageStored (id : Int64)
  | messageDeleted (id : Int64)
  | unknownMessageDeleted (id : Int64)
  | listHit (key : String)
  | pageHit (key : String)
  | pageMiss (page size total : Int64) (window : PageWindow)
  | boardReady (index : String)
  deriving DecidableEq, Repr

namespace Event

/-- The severity of an event. -/
def severity : Event → Severity
  | binMissing .. | binMistyped .. | attemptFailed _ | firstAttemptFailed _ | entryDeclined .. =>
    .warn
  | connectionReady | connectionReestablished | connectionClosed | messageStored _
  | messageDeleted _ | boardReady _ => .info
  | connectionDropped | attemptDeferred | replacedConnectionClosed | entryTooCostly ..
  | entryEvicted .. | unknownMessageDeleted _ | listHit _ | pageHit _ | pageMiss .. => .debug

/-- The wording of an event. -/
def text : Event → String
  | binMissing _ .int => "missing bin, using 0"
  | binMissing _ .str => "missing bin, using empty"
  | binMistyped _ .int _ => "expected int bin, using 0"
  | binMistyped _ .str _ => "expected string bin, using empty"
  | connectionDropped => "store connection dropped, reconnecting"
  | attemptFailed _ => "store connection attempt failed"
  | firstAttemptFailed _ => "initial store connection failed"
  | attemptDeferred => "no async runtime, store connection deferred to first use"
  | replacedConnectionClosed => "closed replaced store connection"
  | connectionReady => "store connection ready"
  | connectionReestablished => "store connection re-established"
  | connectionClosed => "store connection closed"
  | entryTooCostly .. => "cache entry exceeds budget"
  | entryEvicted .. => "evicted cache entry"
  | entryDeclined .. => "cache declined entry"
  | messageStored _ => "message stored"
  | messageDeleted _ => "message deleted"
  | unknownMessageDeleted _ => "delete of unknown message"
  | listHit _ => "cache hit"
  | pageHit _ => "page cache hit"
  | pageMiss .. => "page cache miss"
  | boardReady _ => "board ready"

/-- The named fields of an event. -/
def fields : Event → List (String × Field)
  | binMissing bin _ => [("bin", .text bin)]
  | binMistyped bin _ found => [("bin", .text bin), ("found", .text found)]
  | attemptFailed cause | firstAttemptFailed cause => [("error", .text cause.text)]
  | connectionDropped | attemptDeferred | replacedConnectionClosed | connectionReady
  | connectionReestablished | connectionClosed => []
  | entryTooCostly key cost maxCost =>
    [("key", .text key), ("cost", .number cost.toNat), ("max_cost", .number maxCost.toNat)]
  | entryEvicted key cost | entryDeclined key cost =>
    [("key", .text key), ("cost", .number cost.toNat)]
  | messageStored id | messageDeleted id | unknownMessageDeleted id => [("id", .number id.toInt)]
  | listHit key | pageHit key => [("key", .text key)]
  | pageMiss page size total window =>
    [("page", .number page.toInt), ("size", .number size.toInt), ("total", .number total.toInt),
      ("window", .text window.text)]
  | boardReady index => [("index", .text index)]

end Event

end Guestbook
