import Guestbook.Word
import Guestbook.Text.Decimal

/-!
# Pages

A page of so many messages covers a window of ids, and has a key of its own in the cache.

## Main definitions
- `Page.key`, `Page.allMessagesKey`: cache keys
- `PageWindow`: what a page covers
- `PageWindow.of`: the window of a page
-/

namespace Guestbook

namespace Page

/-- Cache key of the full list of messages. -/
def allMessagesKey : String := "all-messages"

/-- Cache key of one page. -/
def key (page size : Int64) : String :=
  "messages::" ++ Text.Decimal.intText page.toInt ++ "::" ++ Text.Decimal.intText size.toInt

end Page

/-- What a page covers. -/
inductive PageWindow where
  /-- The ids from `low` to `high`, both included. -/
  | ids (low high : Int64)
  /-- The messages with the highest ids, as many as the page holds. -/
  | last
  deriving DecidableEq, Repr

namespace PageWindow

/-- The window of `page` with `size` messages out of `total`. Pages past `total / size` are the last
page. -/
def of (page size total : Int64) : Except Fault PageWindow := do
  let regular ← Word.div total size
  let pages ← Word.add regular 1
  if pages ≤ page then
    return .last
  let before ← Word.sub page 1
  let low ← Word.mul before size
  let past ← Word.add low size
  let high ← Word.sub past 1
  return .ids low high

/-- The text of a window. -/
def text : PageWindow → String
  | ids low high =>
    "Ids \x7b from: " ++ Text.Decimal.intText low.toInt ++ ", to: "
      ++ Text.Decimal.intText high.toInt ++ " \x7d"
  | last => "Last"

end PageWindow

end Guestbook
