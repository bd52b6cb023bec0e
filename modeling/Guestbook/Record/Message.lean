import Guestbook.Record
import Guestbook.Message
import Guestbook.Event

/-!
# Messages as records

A message is written into four bins. Reading is lossy: a bin that is missing or has the wrong type
counts as zero or empty and is reported, so that one broken record never hides the others.

## Main definitions
- `Record.ofMessage`: the four bins of a message
- `Record.toMessage`: the message of a record, with a report for each bin that could not be used
- `Record.toMessages`: the same for a list of records
-/

namespace Guestbook.Record

/-- The bins of a message. -/
def ofMessage (m : Message) : Record :=
  .ofList [(Bin.id, .int m.id), (Bin.author, .str m.author), (Bin.message, .str m.text),
    (Bin.timestamp, .int m.timestamp)]

/-- The integer in a bin, or zero with a report. -/
def readInt (r : Record) (bin : String) : Int64 × List Event :=
  match r.find? bin with
  | some (.int n) => (n, [])
  | some other => (0, [.binMistyped bin .int other.kind])
  | none => (0, [.binMissing bin .int])

/-- The text in a bin, or the empty text with a report. -/
def readStr (r : Record) (bin : String) : String × List Event :=
  match r.find? bin with
  | some (.str s) => (s, [])
  | some other => ("", [.binMistyped bin .str other.kind])
  | none => ("", [.binMissing bin .str])

/-- The message of a record and the reports, in the order id, author, text, timestamp. -/
def toMessage (r : Record) : Message × List Event :=
  let id := r.readInt Bin.id
  let author := r.readStr Bin.author
  let text := r.readStr Bin.message
  let timestamp := r.readInt Bin.timestamp
  ({ id := id.1, author := author.1, text := text.1, timestamp := timestamp.1 },
    id.2 ++ author.2 ++ text.2 ++ timestamp.2)

/-- The messages of a list of records, in order, and all reports. -/
def toMessages (records : List Record) : List Message × List Event :=
  (records.map fun r => (toMessage r).1, records.flatMap fun r => (toMessage r).2)

end Guestbook.Record
