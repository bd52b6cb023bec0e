import Guestbook.Text.Decimal

/-!
# Spans of time

A span is a whole number of nanoseconds. Its text uses the largest of the units `s`, `ms`, `µs` and
`ns` that gives a whole part of at least one, and drops the trailing zeros of the fraction.
-/

namespace Guestbook

/-- A span of time. -/
structure Duration where
  /-- Length in nanoseconds. -/
  nanos : Nat
  deriving DecidableEq, Repr

namespace Duration

/-- The span of so many seconds. -/
def ofSeconds (n : Nat) : Duration := ⟨n * 1000000000⟩

/-- The span of so many milliseconds. -/
def ofMillis (n : Nat) : Duration := ⟨n * 1000000⟩

/-- Whole seconds of a span. -/
def wholeSeconds (d : Duration) : Nat := d.nanos / 1000000000

/-- Nanoseconds of a span beyond its whole seconds. -/
def subsecNanos (d : Duration) : Nat := d.nanos % 1000000000

/-- `n` as a fraction of `places` digits, without its trailing zeros; empty for zero. -/
def fraction (places n : Nat) : List Char :=
  let ds := Text.Decimal.natChars n
  let padded := List.replicate (places - ds.length) '0' ++ ds
  match (padded.reverse.dropWhile (· = '0')).reverse with
  | [] => []
  | cs => '.' :: cs

/-- The text of a span in the unit of `10 ^ places` nanoseconds. -/
def inUnit (d : Duration) (places : Nat) (label : String) : String :=
  let unit := Nat.pow 10 places
  String.ofList (Text.Decimal.natChars (d.nanos / unit) ++ fraction places (d.nanos % unit))
    ++ label

/-- The text of a span. -/
def text (d : Duration) : String :=
  if 1000000000 ≤ d.nanos then d.inUnit 9 "s"
  else if 1000000 ≤ d.nanos then d.inUnit 6 "ms"
  else if 1000 ≤ d.nanos then d.inUnit 3 "µs"
  else d.inUnit 0 "ns"

end Duration

end Guestbook
