import Guestbook.Action
import Guestbook.Message

/-!
# Expectations about results

Checks that a result of the board is what was expected of it.

## Main definitions
- `Expectation.outOfOrder?`: the first two neighbouring ids that are not strictly increasing
- `Expectation.isConnectionFailure`, `Expectation.isUnreadable`: kinds of failed results
-/

namespace Guestbook.Expectation

/-- The first two neighbouring ids that are not strictly increasing. -/
def outOfOrder? : List Int64 → Option (Int64 × Int64)
  | a :: b :: ids => if a < b then outOfOrder? (b :: ids) else some (a, b)
  | _ => none

/-- The complaint about two ids that are not strictly increasing. -/
def orderComplaint (pair : Int64 × Int64) : String :=
  "ids not strictly increasing: " ++ Text.Decimal.intText pair.1.toInt ++ " then "
    ++ Text.Decimal.intText pair.2.toInt

/-- Whether a result failed for want of a connection. -/
def isConnectionFailure {α : Type} : Except BoardError α → Bool
  | .error cause => cause.isConnection
  | .ok _ => false

/-- Whether a result failed because the entry under `key` could not be read. -/
def isUnreadable {α : Type} (key : String) : Except BoardError α → Bool
  | .error (.unreadableEntry key' _) => key' = key
  | _ => false

end Guestbook.Expectation
