/-!
# Machine words

Ids, timestamps, pages and counters are 64-bit signed words, costs are 64-bit unsigned words.
Arithmetic on them is checked: a result that no word holds is a `Fault`, never a wrapped value.

## Main definitions
- `Fault`: why word arithmetic stopped, with its text
- `Word.add`, `Word.sub`, `Word.mul`, `Word.div`: checked signed arithmetic
- `Word.saturatingSub`, `Word.saturatingDouble`: signed arithmetic that stops at the extremes
- `Cost.add`, `Cost.sub`: checked unsigned arithmetic
-/

namespace Guestbook

/-- Why word arithmetic stopped. -/
inductive Fault where
  | addOverflow
  | subOverflow
  | mulOverflow
  | divideByZero
  | divideOverflow
  deriving DecidableEq, Repr

/-- The wording of a fault. -/
def Fault.text : Fault → String
  | .addOverflow => "attempt to add with overflow"
  | .subOverflow => "attempt to subtract with overflow"
  | .mulOverflow => "attempt to multiply with overflow"
  | .divideByZero => "attempt to divide by zero"
  | .divideOverflow => "attempt to divide with overflow"

namespace Word

/-! ## Signed words -/

/-- The least signed word. -/
def least : Int := -9223372036854775808

/-- The greatest signed word. -/
def greatest : Int := 9223372036854775807

/-- The word with value `n`, or `fault` when there is none. -/
def ofInt (fault : Fault) (n : Int) : Except Fault Int64 :=
  if least ≤ n ∧ n ≤ greatest then .ok (Int64.ofInt n) else .error fault

/-- Checked sum. -/
def add (a b : Int64) : Except Fault Int64 :=
  ofInt .addOverflow (a.toInt + b.toInt)

/-- Checked difference. -/
def sub (a b : Int64) : Except Fault Int64 :=
  ofInt .subOverflow (a.toInt - b.toInt)

/-- Checked product. -/
def mul (a b : Int64) : Except Fault Int64 :=
  ofInt .mulOverflow (a.toInt * b.toInt)

/-- Checked quotient, truncated toward zero. -/
def div (a b : Int64) : Except Fault Int64 :=
  if b.toInt = 0 then .error .divideByZero
  else ofInt .divideOverflow (a.toInt.tdiv b.toInt)

/-- The word nearest to `n`. -/
def clamp (n : Int) : Int64 :=
  Int64.ofInt (max least (min greatest n))

/-- The difference, or the extreme word on its side. -/
def saturatingSub (a b : Int64) : Int64 :=
  clamp (a.toInt - b.toInt)

/-- Twice a word, or the extreme word on its side. -/
def saturatingDouble (a : Int64) : Int64 :=
  clamp (2 * a.toInt)

end Word

/-! ## Costs -/

/-- What an entry costs a cache, and what a cache may hold: an unsigned 64-bit word. -/
abbrev Cost : Type := UInt64

namespace Cost

/-- Checked sum. -/
def add (a b : Cost) : Except Fault Cost :=
  if a.toNat + b.toNat < UInt64.size then .ok (a + b) else .error .addOverflow

/-- Checked difference. -/
def sub (a b : Cost) : Except Fault Cost :=
  if b.toNat ≤ a.toNat then .ok (a - b) else .error .subOverflow

end Cost

end Guestbook
