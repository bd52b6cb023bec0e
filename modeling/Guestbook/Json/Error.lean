import Guestbook.Json.Member
import Guestbook.Text.Decimal
import Guestbook.Text.Quoted

/-!
# Why an encoding cannot be read

Reading goes from left to right and reports the first problem it meets: the bytes end too early,
they are no JSON, or they are JSON of another shape.

## Main definitions
- `DecodeError`: the causes
- `DecodeError.text`: their wordings
-/

namespace Guestbook.Json

/-- What the bytes end inside of. -/
inductive Unfinished where
  | list
  | object
  | string
  | value
  deriving DecidableEq, Repr

/-- How bytes fail to be JSON. -/
inductive Malformed where
  | colonWanted
  | listCommaWanted
  | objectCommaWanted
  | keyword
  | valueWanted
  | escape
  | number
  /-- A number beyond binary64. -/
  | numberRange
  /-- A string that is not UTF-8. -/
  | codePoint
  | controlCharacter
  | keyWanted
  /-- One half of a surrogate pair. -/
  | loneSurrogate
  | trailingComma
  | trailingBytes
  /-- A leading surrogate without a second escape. -/
  | hexEscapeEnd
  deriving DecidableEq, Repr

/-- What was found where something else was wanted. -/
inductive Found where
  | null
  | boolean (b : Bool)
  | integer (n : Int)
  | float
  | string (s : String)
  | list
  | object
  deriving DecidableEq, Repr

/-- What was wanted. -/
inductive Wanted where
  | integer
  | string
  | message
  | list
  deriving DecidableEq, Repr

/-- How JSON fails to have the shape of a message or of a list of messages. -/
inductive Misshapen where
  | wrongType (found : Found) (wanted : Wanted)
  /-- An integer that no signed word holds. -/
  | integerRange (n : Int)
  /-- An array of fewer than four values for a message. -/
  | shortArray (length : Nat)
  | memberMissing (m : Member)
  | memberRepeated (m : Member)
  deriving DecidableEq, Repr

/-- Why an encoding cannot be read. -/
inductive DecodeError where
  | unfinished (inside : Unfinished)
  | malformed (how : Malformed)
  | misshapen (how : Misshapen)
  deriving DecidableEq, Repr

/-! ## Wordings -/

/-- The wording of what the bytes end inside of. -/
def Unfinished.text : Unfinished → String
  | .list => "EOF while parsing a list"
  | .object => "EOF while parsing an object"
  | .string => "EOF while parsing a string"
  | .value => "EOF while parsing a value"

/-- The wording of a malformation. -/
def Malformed.text : Malformed → String
  | .colonWanted => "expected `:`"
  | .listCommaWanted => "expected `,` or `]`"
  | .objectCommaWanted => "expected `,` or `\x7d`"
  | .keyword => "expected ident"
  | .valueWanted => "expected value"
  | .escape => "invalid escape"
  | .number => "invalid number"
  | .numberRange => "number out of range"
  | .codePoint => "invalid unicode code point"
  | .controlCharacter => "control character (\\u0000-\\u001F) found while parsing a string"
  | .keyWanted => "key must be a string"
  | .loneSurrogate => "lone leading surrogate in hex escape"
  | .trailingComma => "trailing comma"
  | .trailingBytes => "trailing characters"
  | .hexEscapeEnd => "unexpected end of hex escape"

/-- The wording of what was found. The full wording shows the value of a floating point number,
which is left out here: no such value is kept. -/
def Found.text : Found → String
  | .null => "null"
  | .boolean true => "boolean `true`"
  | .boolean false => "boolean `false`"
  | .integer n => "integer `" ++ Text.Decimal.intText n ++ "`"
  | .float => "floating point"
  | .string s => "string " ++ Text.quote s
  | .list => "sequence"
  | .object => "map"

/-- The wording of what was wanted. -/
def Wanted.text : Wanted → String
  | .integer => "i64"
  | .string => "a string"
  | .message => "struct Message"
  | .list => "a sequence"

/-- The wording of a wrong shape. -/
def Misshapen.text : Misshapen → String
  | .wrongType found wanted => "invalid type: " ++ found.text ++ ", expected " ++ wanted.text
  | .integerRange n => "invalid value: " ++ (Found.integer n).text ++ ", expected i64"
  | .shortArray length =>
    "invalid length " ++ Text.Decimal.natText length ++ ", expected struct Message with 4 elements"
  | .memberMissing m => "missing field `" ++ m.name ++ "`"
  | .memberRepeated m => "duplicate field `" ++ m.name ++ "`"

/-- The wording of a failed reading. The full wording ends with the line and the column that were
reached, which are left out here: no reader counts them. -/
def DecodeError.text : DecodeError → String
  | .unfinished inside => inside.text
  | .malformed how => how.text
  | .misshapen how => how.text

end Guestbook.Json
