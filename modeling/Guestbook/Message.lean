import Guestbook.Text.Blank
import Guestbook.Error

/-!
# Messages

A post on the board, made from a visitor's input, and the order of a list of posts.

## Main definitions
- `Message`: a post
- `Message.compose`: a post from a visitor's input
- `Message.sortByTimestamp`, `Message.sortById`: stable ascending sorts
-/

namespace Guestbook

/-- A post on the board. -/
structure Message where
  /-- Issued by the store's counter; zero until then. -/
  id : Int64 := 0
  author : String := ""
  text : String := ""
  /-- Seconds since the start of 1970. -/
  timestamp : Int64 := 0
  deriving DecidableEq, Repr, Inhabited

namespace Message

/-- The author of a post whose visitor left the name blank. -/
def defaultAuthor : String := "anon"

/-- The author named by a visitor's input: the trimmed name, or the default when it is missing or
blank. -/
def authorOf : Option String → String
  | none => defaultAuthor
  | some name => if Text.isBlankText name then defaultAuthor else Text.trim name

/-- A post from a visitor's input at time `now`. Blank text is refused and other text is kept as it
is. -/
def compose (author : Option String) (text : String) (now : Int64) : Except BoardError Message :=
  if Text.isBlankText text then .error .emptyMessage
  else .ok { author := authorOf author, text, timestamp := now }

/-- Stable ascending sort by timestamp. -/
def sortByTimestamp (ms : List Message) : List Message :=
  ms.mergeSort fun a b => a.timestamp ≤ b.timestamp

/-- Stable ascending sort by id. -/
def sortById (ms : List Message) : List Message :=
  ms.mergeSort fun a b => a.id ≤ b.id

end Message

end Guestbook
