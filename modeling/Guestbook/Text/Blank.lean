/-!
# Blank characters

The characters with the Unicode property White_Space, and trimming by them.

## Main definitions
- `isBlank`: the 25 characters with White_Space
- `trim`: a text without the blanks at its ends
- `isBlankText`: nothing is left after trimming
-/

namespace Guestbook.Text

/-- The ranges of code points with the Unicode property White_Space. -/
def blankRanges : List (Nat × Nat) :=
  [(0x09, 0x0D), (0x20, 0x20), (0x85, 0x85), (0xA0, 0xA0), (0x1680, 0x1680), (0x2000, 0x200A),
    (0x2028, 0x2029), (0x202F, 0x202F), (0x205F, 0x205F), (0x3000, 0x3000)]

/-- Whether a character is White_Space. -/
def isBlank (c : Char) : Bool :=
  blankRanges.any fun range => range.1 ≤ c.toNat && c.toNat ≤ range.2

/-- Characters without the blanks at both ends. -/
def trimChars (cs : List Char) : List Char :=
  ((cs.dropWhile isBlank).reverse.dropWhile isBlank).reverse

/-- A text without the blanks at both ends. -/
def trim (s : String) : String :=
  String.ofList (trimChars s.toList)

/-- Whether a text holds no character but blanks. -/
def isBlankText (s : String) : Bool :=
  (trimChars s.toList).isEmpty

end Guestbook.Text
