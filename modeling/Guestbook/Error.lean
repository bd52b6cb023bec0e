import Guestbook.Duration

/-!
# Failures of the board

Every failure is a cause with the data that belongs to it. The wording of each cause stands in
`BoardError.detail`; `BoardError.text` puts the area of the failure in front.

## Main definitions
- `BoardError`: the causes
- `BoardError.area`: the part of the board that failed
- `BoardError.text`: the full wording
-/

namespace Guestbook

/-- Why an operation of the board failed. -/
inductive BoardError where
  /-- No connection to the store. -/
  | notConnected
  /-- Another connection attempt is in flight. -/
  | alreadyConnecting
  | connectFailed (reason : String)
  /-- The store was not ready in time. -/
  | notReady (after : Duration)
  | putFailed (key : Int64) (reason : String)
  | deleteFailed (key : Int64) (reason : String)
  | rangeQueryFailed (index : String) (low high : Int64) (reason : String)
  | scanFailed (reason : String)
  | countFailed (reason : String)
  | counterUnavailable (reason : String)
  | counterFailed (amount : Int64) (reason : String)
  | invalidKey (key : String) (reason : String)
  /-- A cached entry does not hold a list of messages. -/
  | unreadableEntry (key : String) (reason : String)
  | emptyMessage
  | invalidPage (page size : Int64)
  | invalidSetting (field value reason : String)
  deriving DecidableEq, Repr

/-- The part of the board that a failure belongs to. -/
inductive Area where
  | connection
  | store
  | cache
  | validation
  | config
  deriving DecidableEq, Repr

/-- The word that introduces failures of an area. -/
def Area.label : Area → String
  | .connection => "Connection error: "
  | .store => "Store error: "
  | .cache => "Cache error: "
  | .validation => "Validation error: "
  | .config => "Config error: "

namespace BoardError

/-- The area of a failure. -/
def area : BoardError → Area
  | notConnected | alreadyConnecting | connectFailed _ | notReady _ => .connection
  | putFailed .. | deleteFailed .. | rangeQueryFailed .. | scanFailed _ | countFailed _
  | counterUnavailable _ | counterFailed .. | invalidKey .. => .store
  | unreadableEntry .. => .cache
  | emptyMessage | invalidPage .. => .validation
  | invalidSetting .. => .config

open Text.Decimal in
/-- The wording of a failure without its area. -/
def detail : BoardError → String
  | notConnected => "Store is not connected"
  | alreadyConnecting => "Store connection attempt already in progress"
  | connectFailed reason => "Store connection failed: " ++ reason
  | notReady after => "Store not ready after " ++ after.text
  | putFailed key reason => "Put failed for key " ++ intText key.toInt ++ ": " ++ reason
  | deleteFailed key reason => "Delete failed for key " ++ intText key.toInt ++ ": " ++ reason
  | rangeQueryFailed index low high reason =>
    "Range query on " ++ index ++ " [" ++ intText low.toInt ++ ", " ++ intText high.toInt
      ++ "] failed: " ++ reason
  | scanFailed reason => "Scan failed: " ++ reason
  | countFailed reason => "Count failed: " ++ reason
  | counterUnavailable reason => "Counter unavailable: " ++ reason
  | counterFailed amount reason =>
    "Counter increment by " ++ intText amount.toInt ++ " failed: " ++ reason
  | invalidKey key reason => "Invalid store key " ++ key ++ ": " ++ reason
  | unreadableEntry key reason =>
    "Cached value under " ++ key ++ " has unexpected shape: " ++ reason
  | emptyMessage => "Message must not be empty"
  | invalidPage page size =>
    "Invalid page request: page " ++ intText page.toInt ++ ", size " ++ intText size.toInt
  | invalidSetting field value reason =>
    "Invalid value for " ++ field ++ ": " ++ value ++ " - " ++ reason

/-- The full wording of a failure. -/
def text (e : BoardError) : String :=
  e.area.label ++ e.detail

/-- Whether the store could not be reached. -/
def isConnection (e : BoardError) : Bool :=
  e.area = .connection

end BoardError

end Guestbook
