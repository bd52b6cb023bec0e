/-!
# Decimal text

Integers are written with the fewest decimal digits and a leading minus sign when negative. A
numeral of a setting is read more freely: an optional plus sign, then digits, leading zeros
included.

## Main definitions
- `digits`, `value`: a number and its decimal digits
- `intText`: the text of an integer
- `readWord?`: the 64-bit unsigned word a numeral stands for
-/

namespace Guestbook.Text.Decimal

/-- The decimal digits of `n`, most significant first. -/
def digits (n : Nat) : List Nat :=
  if n < 10 then [n] else digits (n / 10) ++ [n % 10]

/-- The number with the given decimal digits, most significant first. -/
def value (ds : List Nat) : Nat :=
  ds.foldl (fun v d => 10 * v + d) 0

/-- The character of a digit below ten. -/
def digitChar (d : Nat) : Char :=
  Char.ofNat (48 + d)

/-- The characters of a natural number. -/
def natChars (n : Nat) : List Char :=
  (digits n).map digitChar

/-- The characters of an integer. -/
def intChars (n : Int) : List Char :=
  if n < 0 then '-' :: natChars n.natAbs else natChars n.natAbs

/-- The text of a natural number. -/
def natText (n : Nat) : String :=
  String.ofList (natChars n)

/-- The text of an integer. -/
def intText (n : Int) : String :=
  String.ofList (intChars n)

/-- The value of an ASCII digit. -/
def digit? (c : Char) : Option Nat :=
  if 48 ≤ c.toNat ∧ c.toNat ≤ 57 then some (c.toNat - 48) else none

/-- The characters after one optional plus sign. -/
def unsigned : List Char → List Char
  | '+' :: cs => cs
  | cs => cs

/-- The word that a numeral stands for: an optional plus sign, one digit or more, and a value
below `2 ^ 64`. -/
def readWord? (s : String) : Option UInt64 :=
  match unsigned s.toList with
  | [] => none
  | c :: cs =>
    match (c :: cs).mapM digit? with
    | none => none
    | some ds =>
      if value ds < UInt64.size then some (UInt64.ofNat (value ds)) else none

end Guestbook.Text.Decimal
