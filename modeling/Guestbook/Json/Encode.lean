import Guestbook.Text.Bytes
import Guestbook.Text.Decimal
import Guestbook.Json.Member
import Guestbook.Message

/-!
# Writing messages as JSON

The compact encoding: no blanks, members in the order of `Member.all`, and in strings only the
quote, the backslash and the control characters below U+0020 escaped.

## Main definitions
- `quoted`, `integer`: strings and integers
- `encodeMessage`, `encodeMessages`: a message, and a list of messages
-/

namespace Guestbook.Json

open Ascii

/-- A byte of a string as it is written. -/
def escapeByte (b : UInt8) : Bytes :=
  if b = quote then [backslash, quote]
  else if b = backslash then [backslash, backslash]
  else if b = backspace then [backslash, lowerB]
  else if b = tab then [backslash, lowerT]
  else if b = lineFeed then [backslash, lowerN]
  else if b = formFeed then [backslash, lowerF]
  else if b = carriageReturn then [backslash, lowerR]
  else if b < space then
    [backslash, lowerU, zero, zero, ofHexDigit (b.toNat / 16), ofHexDigit (b.toNat % 16)]
  else [b]

/-- A text as a JSON string. -/
def quoted (s : String) : Bytes :=
  quote :: ((Text.toBytes s).flatMap escapeByte ++ [quote])

/-- The bytes of a natural number. -/
def natural (n : Nat) : Bytes :=
  (Text.Decimal.digits n).map fun d => UInt8.ofNat (48 + d)

/-- An integer as a JSON number. -/
def integer (n : Int) : Bytes :=
  if n < 0 then minus :: natural n.natAbs else natural n.natAbs

/-- A member of an object. -/
def member (m : Member) (value : Bytes) : Bytes :=
  quoted m.name ++ colon :: value

/-- The value of a member of a message. -/
def memberValue (msg : Message) : Member → Bytes
  | .id => integer msg.id.toInt
  | .author => quoted msg.author
  | .message => quoted msg.text
  | .timestamp => integer msg.timestamp.toInt

/-- Items with commas between them. -/
def separated : List Bytes → Bytes
  | [] => []
  | [item] => item
  | item :: next :: items => item ++ comma :: separated (next :: items)

/-- The encoding of a message. -/
def encodeMessage (msg : Message) : Bytes :=
  openBrace :: (separated (Member.all.map fun m => member m (memberValue msg m)) ++ [closeBrace])

/-- The encoding of a list of messages. -/
def encodeMessages (msgs : List Message) : Bytes :=
  openBracket :: (separated (msgs.map encodeMessage) ++ [closeBracket])

end Guestbook.Json
