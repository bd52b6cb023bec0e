/-!
# Bytes of text

Encoded entries are lists of bytes. A text has its UTF-8 bytes; not every list of bytes is a text.

## Main definitions
- `Bytes`: a list of bytes
- `Text.toBytes`, `Text.ofBytes?`: UTF-8
- `Ascii.quote`, ...: names of the ASCII bytes that the encodings use
-/

namespace Guestbook

/-- A list of bytes. -/
abbrev Bytes : Type := List UInt8

namespace Text

/-- The UTF-8 bytes of a text. -/
def toBytes (s : String) : Bytes := s.toUTF8.data.toList

/-- The text with the given UTF-8 bytes, if there is one. -/
def ofBytes? (bs : Bytes) : Option String := String.fromUTF8? ⟨bs.toArray⟩

end Text

/-! ## Names of bytes -/

namespace Ascii

def backspace : UInt8 := 8
def tab : UInt8 := 9
def lineFeed : UInt8 := 10
def formFeed : UInt8 := 12
def carriageReturn : UInt8 := 13
def space : UInt8 := 32
def quote : UInt8 := 34
def plus : UInt8 := 43
def comma : UInt8 := 44
def minus : UInt8 := 45
def point : UInt8 := 46
def slash : UInt8 := 47
def zero : UInt8 := 48
def nine : UInt8 := 57
def colon : UInt8 := 58
def upperE : UInt8 := 69
def openBracket : UInt8 := 91
def backslash : UInt8 := 92
def closeBracket : UInt8 := 93
def lowerB : UInt8 := 98
def lowerE : UInt8 := 101
def lowerF : UInt8 := 102
def lowerN : UInt8 := 110
def lowerR : UInt8 := 114
def lowerT : UInt8 := 116
def lowerU : UInt8 := 117
def openBrace : UInt8 := 123
def closeBrace : UInt8 := 125

/-- Whether a byte is a decimal digit. -/
def isDigit (b : UInt8) : Bool := zero ≤ b && b ≤ nine

/-- The value of a decimal digit. -/
def digitValue (b : UInt8) : Nat := b.toNat - 48

/-- The value of a hexadecimal digit. -/
def hexDigit? (b : UInt8) : Option Nat :=
  if 48 ≤ b.toNat ∧ b.toNat ≤ 57 then some (b.toNat - 48)
  else if 65 ≤ b.toNat ∧ b.toNat ≤ 70 then some (b.toNat - 55)
  else if 97 ≤ b.toNat ∧ b.toNat ≤ 102 then some (b.toNat - 87)
  else none

/-- The lower-case hexadecimal digit with a value below sixteen. -/
def ofHexDigit (n : Nat) : UInt8 :=
  if n < 10 then UInt8.ofNat (48 + n) else UInt8.ofNat (87 + n)

end Ascii

end Guestbook
