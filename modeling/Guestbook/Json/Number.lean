import Guestbook.Json.Literal

/-!
# Numbers

A number without fraction and exponent is an integer if it fits 64 bits: without a sign an unsigned
word, with a minus sign a signed word below zero. Every other number is a float. Only the first
digits that fit 64 bits count for a float, and one beyond binary64 is refused.

## Main definitions
- `Number`: what a number is read as
- `readNumber`: reads a number after its sign
- `skipNumber`: passes over a number after its sign

## Main statements
- `length_of_readNumber`, `length_of_skipNumber`: a number takes at least one byte
-/

namespace Guestbook.Json

open Ascii

/-- What a number is read as. -/
inductive Number where
  | integer (n : Int)
  | float
  deriving DecidableEq, Repr

/-! ## Digits -/

/-- The leading digits. -/
def leadingDigits (s : Bytes) : Bytes := s.takeWhile isDigit

/-- The bytes after the leading digits. -/
def afterDigits (s : Bytes) : Bytes := s.dropWhile isDigit

/-- The number that digits continue. -/
def digitsValue (start : Nat) (ds : Bytes) : Nat :=
  ds.foldl (fun v d => 10 * v + digitValue d) start

/-- Continues a number with digits as long as it fits 64 bits; also how many digits are left
over. -/
def keepDigits (start : Nat) : Bytes → Nat × Nat
  | [] => (start, 0)
  | d :: ds =>
    if 10 * start + digitValue d < UInt64.size then
      keepDigits (10 * start + digitValue d) ds
    -- The first digit that does not fit is left over with all that follow it.
    else (start, ds.length + 1)

/-- Reads the integer part of a number: one zero, or digits that do not start with zero. -/
def readIntegerPart (s : Bytes) : Read Bytes :=
  match s with
  | [] => .error (.unfinished .value)
  | b :: rest =>
    if b = zero then
      -- No digit may follow a leading zero.
      if (leadingDigits rest).isEmpty then .ok ([b], rest) else .error (.malformed .number)
    else if isDigit b then .ok (b :: leadingDigits rest, afterDigits rest)
    else .error (.malformed .number)

/-- Reads the digits after the decimal point, of which there is at least one. -/
def readFraction (s : Bytes) : Read Bytes :=
  if (leadingDigits s).isEmpty then
    match s with
    | [] => .error (.unfinished .value)
    | _ :: _ => .error (.malformed .number)
  else .ok (leadingDigits s, afterDigits s)

/-- Reads the sign of an exponent: whether it is negative. -/
def exponentSign (s : Bytes) : Bool × Bytes :=
  match s with
  | [] => (false, [])
  | b :: rest =>
    if b = plus then (false, rest)
    else if b = minus then (true, rest)
    else (false, b :: rest)

/-! ## Magnitude -/

/-- `n` rounded to 53 significant binary digits, a half going to the even neighbour. -/
def roundToBinary64 (n : Nat) : Nat :=
  let unit := Nat.pow 2 (n.log2 - 52)
  let quotient := n / unit
  let rest := n % unit
  if 2 * rest < unit ∨ (2 * rest = unit ∧ quotient % 2 = 0) then quotient * unit
  else (quotient + 1) * unit

/-- The least number that rounds beyond binary64: half a unit above `2 ^ 1024 - 2 ^ 971`, the
greatest finite one. -/
def binary64Limit : Nat := Nat.pow 2 1024 - Nat.pow 2 970

/-- Whether binary64 holds the rounded product of the rounded `significand` and the rounded power of
ten. -/
def fitsBinary64 (significand : Nat) (exponent : Int) : Bool :=
  -- Zero fits with any exponent, and a negative exponent only makes the number smaller.
  significand = 0 || exponent < 0
    || (exponent ≤ 308
      && roundToBinary64 significand * roundToBinary64 (Nat.pow 10 exponent.toNat) < binary64Limit)

/-- A float with the given significand and decimal exponent. -/
def floatOrRange (significand : Nat) (exponent : Int) (rest : Bytes) : Read Number :=
  if fitsBinary64 significand exponent then .ok (.float, rest)
  else .error (.malformed .numberRange)

/-! ## Reading -/

/-- A float whose exponent is written out. An exponent beyond 31 bits is refused unless the float is
zero or the exponent negative. -/
def withExponent (significand : Nat) (scale : Int) (negative : Bool) (exponent : Nat)
    (rest : Bytes) : Read Number :=
  if exponent ≤ 2147483647 then
    floatOrRange significand (if negative then scale - exponent else scale + exponent) rest
  else if significand = 0 ∨ negative then .ok (.float, rest)
  else .error (.malformed .numberRange)

/-- Reads the exponent of a float after its mark. -/
def readExponent (significand : Nat) (scale : Int) (s : Bytes) : Read Number :=
  match (exponentSign s).2 with
  | [] => .error (.unfinished .value)
  | b :: rest =>
    if isDigit b then
      withExponent significand scale (exponentSign s).1 (digitsValue 0 (b :: leadingDigits rest))
        (afterDigits rest)
    else .error (.malformed .number)

/-- Reads what follows the fraction of a float: an exponent or nothing. -/
def readAfterFraction (significand : Nat) (scale : Int) (s : Bytes) : Read Number :=
  match s with
  | [] => floatOrRange significand scale []
  | b :: rest =>
    if b = lowerE ∨ b = upperE then readExponent significand scale rest
    else floatOrRange significand scale (b :: rest)

/-- A number that ends after its integer part. -/
def wholeNumber (negative : Bool) (significand dropped : Nat) (rest : Bytes) : Read Number :=
  if dropped ≠ 0 then floatOrRange significand dropped rest
  else if negative = false then .ok (.integer significand, rest)
  -- Minus zero and what is below the least word are floats.
  else if significand = 0 ∨ 0x8000000000000000 < significand then .ok (.float, rest)
  else .ok (.integer (-significand), rest)

/-- Reads a number after its sign. -/
def readNumber (negative : Bool) (s : Bytes) : Read Number :=
  match readIntegerPart s with
  | .error e => .error e
  | .ok (ds, s) =>
    let (significand, dropped) := keepDigits 0 ds
    match s with
    | [] => wholeNumber negative significand dropped []
    | b :: rest =>
      if b = point then
        match readFraction rest with
        | .error e => .error e
        | .ok (fs, s) =>
          let (significand, unused) := keepDigits significand fs
          -- Each digit of the fraction that counts lowers the scale by one.
          readAfterFraction significand ((dropped : Int) - fs.length + unused) s
      else if b = lowerE ∨ b = upperE then readExponent significand dropped rest
      else wholeNumber negative significand dropped (b :: rest)

/-! ## Passing over -/

/-- Passes over the exponent of a number after its mark. -/
def skipExponent (s : Bytes) : Except DecodeError Bytes :=
  match (exponentSign s).2 with
  | [] => .error (.malformed .number)
  | b :: rest => if isDigit b then .ok (afterDigits rest) else .error (.malformed .number)

/-- Passes over what follows the fraction of a number. -/
def skipAfterFraction (s : Bytes) : Except DecodeError Bytes :=
  match s with
  | [] => .ok []
  | b :: rest => if b = lowerE ∨ b = upperE then skipExponent rest else .ok (b :: rest)

/-- Passes over a number after its sign. Its size does not matter. -/
def skipNumber (s : Bytes) : Except DecodeError Bytes :=
  match readIntegerPart s with
  | .error _ => .error (.malformed .number)
  | .ok (_, []) => .ok []
  | .ok (_, b :: rest) =>
    if b = point then
      if (leadingDigits rest).isEmpty then .error (.malformed .number)
      else skipAfterFraction (afterDigits rest)
    else skipAfterFraction (b :: rest)

/-! ## What is left is shorter -/

theorem length_afterDigits_le (s : Bytes) : (afterDigits s).length ≤ s.length :=
  (List.dropWhile_sublist isDigit).length_le

theorem length_exponentSign_le (s : Bytes) : (exponentSign s).2.length ≤ s.length := by
  cases s with
  | nil => exact Nat.le_refl _
  | cons b rest =>
    rw [exponentSign]
    split
    · exact Nat.le_succ _
    · split
      · exact Nat.le_succ _
      · exact Nat.le_refl _

theorem length_of_readIntegerPart {s ds rest : Bytes} (h : readIntegerPart s = .ok (ds, rest)) :
    rest.length < s.length := by
  cases s with
  | nil => simp [readIntegerPart] at h
  | cons b s =>
    rw [readIntegerPart] at h
    split at h
    · split at h
      · cases h; exact Nat.lt_succ_self _
      · simp at h
    · split at h
      · cases h; exact Nat.lt_succ_of_le (length_afterDigits_le s)
      · simp at h

theorem length_of_readFraction {s ds rest : Bytes} (h : readFraction s = .ok (ds, rest)) :
    rest.length ≤ s.length := by
  unfold readFraction at h
  split at h
  · split at h <;> simp at h
  · cases h
    exact length_afterDigits_le s

theorem eq_of_floatOrRange {significand : Nat} {exponent : Int} {rest rest' : Bytes} {n : Number}
    (h : floatOrRange significand exponent rest = .ok (n, rest')) : rest' = rest := by
  unfold floatOrRange at h
  split at h
  · exact (Prod.mk.inj (Except.ok.inj h)).2.symm
  · simp at h

theorem eq_of_wholeNumber {negative : Bool} {significand dropped : Nat} {rest rest' : Bytes}
    {n : Number} (h : wholeNumber negative significand dropped rest = .ok (n, rest')) :
    rest' = rest := by
  unfold wholeNumber at h
  split at h
  · exact eq_of_floatOrRange h
  · split at h
    · exact (Prod.mk.inj (Except.ok.inj h)).2.symm
    · split at h <;> exact (Prod.mk.inj (Except.ok.inj h)).2.symm

theorem eq_of_withExponent {significand exponent : Nat} {scale : Int} {negative : Bool}
    {rest rest' : Bytes} {n : Number}
    (h : withExponent significand scale negative exponent rest = .ok (n, rest')) :
    rest' = rest := by
  unfold withExponent at h
  split at h
  · exact eq_of_floatOrRange h
  · split at h
    · exact (Prod.mk.inj (Except.ok.inj h)).2.symm
    · simp at h

theorem length_of_readExponent {significand : Nat} {scale : Int} {s rest : Bytes} {n : Number}
    (h : readExponent significand scale s = .ok (n, rest)) : rest.length ≤ s.length := by
  have hsign := length_exponentSign_le s
  unfold readExponent at h
  split at h
  · simp at h
  · next b tail heq =>
    have htail := length_afterDigits_le tail
    simp only [heq, List.length_cons] at hsign
    split at h
    · rw [eq_of_withExponent h]
      omega
    · simp at h

theorem length_of_readAfterFraction {significand : Nat} {scale : Int} {s rest : Bytes}
    {n : Number} (h : readAfterFraction significand scale s = .ok (n, rest)) :
    rest.length ≤ s.length := by
  cases s with
  | nil =>
    rw [readAfterFraction] at h
    exact Nat.le_of_eq (congrArg List.length (eq_of_floatOrRange h))
  | cons b s =>
    rw [readAfterFraction] at h
    split at h
    · exact Nat.le_succ_of_le (length_of_readExponent h)
    · exact Nat.le_of_eq (congrArg List.length (eq_of_floatOrRange h))

theorem length_of_readNumber {negative : Bool} {s rest : Bytes} {n : Number}
    (h : readNumber negative s = .ok (n, rest)) : rest.length < s.length := by
  unfold readNumber at h
  split at h
  · simp at h
  · next ds s' heq =>
    have hpart := length_of_readIntegerPart heq
    simp only at h
    split at h
    · rw [eq_of_wholeNumber h]; exact hpart
    · next b tail =>
      simp only [List.length_cons] at hpart
      split at h
      · split at h
        · simp at h
        · next fs s'' hfraction =>
          have := length_of_readFraction hfraction
          have := length_of_readAfterFraction h
          omega
      · split at h
        · have := length_of_readExponent h
          omega
        · rw [eq_of_wholeNumber h]
          simp only [List.length_cons]
          exact hpart

theorem length_of_skipExponent {s rest : Bytes} (h : skipExponent s = .ok rest) :
    rest.length ≤ s.length := by
  have hsign := length_exponentSign_le s
  rw [skipExponent] at h
  split at h
  · simp at h
  · next b tail heq =>
    split at h
    · cases h
      have := length_afterDigits_le tail
      simp only [heq, List.length_cons] at hsign
      omega
    · simp at h

theorem length_of_skipAfterFraction {s rest : Bytes} (h : skipAfterFraction s = .ok rest) :
    rest.length ≤ s.length := by
  cases s with
  | nil => cases h; exact Nat.le_refl _
  | cons b s =>
    rw [skipAfterFraction] at h
    split at h
    · exact Nat.le_succ_of_le (length_of_skipExponent h)
    · cases h; exact Nat.le_refl _

theorem length_of_skipNumber {s rest : Bytes} (h : skipNumber s = .ok rest) :
    rest.length < s.length := by
  rw [skipNumber] at h
  split at h
  · simp at h
  · next heq =>
    cases h
    exact length_of_readIntegerPart heq
  · next ds b tail heq =>
    have hpart := length_of_readIntegerPart heq
    simp only [List.length_cons] at hpart
    split at h
    · split at h
      · simp at h
      · have := length_of_skipAfterFraction h
        have := length_afterDigits_le tail
        omega
    · have := length_of_skipAfterFraction h
      simp only [List.length_cons] at this
      omega

end Guestbook.Json
