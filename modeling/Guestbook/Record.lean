import Guestbook.SortedMap

/-!
# Records

A stored record is a schemaless map from bin names to values.

## Main definitions
- `BinValue`: the value of one bin, its kind, and the equality of values
- `Record`: the bins of one record
- `Bin.id`, `Bin.author`, ...: the names of the bins in use
-/

namespace Guestbook

/-- The value of one bin. A float is kept as its binary64 bits. -/
inductive BinValue where
  | int (n : Int64)
  | float (bits : UInt64)
  | str (s : String)
  | blob (bytes : List UInt8)
  | nil
  deriving DecidableEq, Repr

/-! ## Binary64 comparison -/

namespace Binary64

/-- The bits without the sign. -/
def magnitude (bits : UInt64) : Nat := bits.toNat % 0x8000000000000000

/-- Whether the bits stand for no number: the exponent is all ones and the fraction is not zero. -/
def isNaN (bits : UInt64) : Bool := 0x7FF0000000000000 < magnitude bits

/-- Equality of the numbers: not-a-number equals nothing, and the two zeros are equal. -/
def equals (a b : UInt64) : Bool :=
  !isNaN a && !isNaN b && (a = b || (magnitude a = 0 && magnitude b = 0))

end Binary64

namespace BinValue

/-- The name of a value's type. -/
def kind : BinValue → String
  | int _ => "int"
  | float _ => "float"
  | str _ => "string"
  | blob _ => "blob"
  | nil => "nil"

/-- Equality of values of the same type; floats are equal as numbers. -/
def equals : BinValue → BinValue → Bool
  | int a, int b => a = b
  | float a, float b => Binary64.equals a b
  | str a, str b => a = b
  | blob a, blob b => a = b
  | nil, nil => true
  | _, _ => false

end BinValue

/-! ## Records -/

/-- The bins of one record by name. -/
abbrev Record : Type := SortedMap String BinValue

namespace Record

/-- Whether two lists of bins have the same names with equal values. -/
def sameBins : List (String × BinValue) → List (String × BinValue) → Bool
  | [], [] => true
  | (name, value) :: bins, (name', value') :: bins' =>
    name = name' && value.equals value' && sameBins bins bins'
  | _, _ => false

/-- Whether two records have the same bins with equal values. -/
def equals (a b : Record) : Bool := sameBins a.entries b.entries

end Record

/-! ## Bin names -/

namespace Bin

/-- Bin of a message's id, and the name of the index over it. -/
def id : String := "id"

def author : String := "author"

def message : String := "message"

def timestamp : String := "timestamp"

/-- Bin of the counter record. -/
def count : String := "count"

end Bin

end Guestbook
