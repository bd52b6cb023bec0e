import Guestbook.Text.Bytes
import Guestbook.Json.Error

/-!
# Blanks and keywords

What may stand between the tokens of JSON, and the three words `null`, `true` and `false`.

## Main definitions
- `skipBlanks`: the bytes after leading blanks
- `expect`: reads the remaining bytes of a keyword

## Main statements
- `length_skipBlanks_le`, `length_of_expect`: what is left is no longer than what was there
-/

namespace Guestbook.Json

open Ascii

/-- What a reader answers: a value and the bytes after it. -/
abbrev Read (α : Type) : Type := Except DecodeError (α × Bytes)

/-- Whether a byte may stand between tokens. -/
def isBlank (b : UInt8) : Bool :=
  b = space || b = tab || b = lineFeed || b = carriageReturn

/-- The bytes after leading blanks. -/
def skipBlanks (s : Bytes) : Bytes := s.dropWhile isBlank

/-- Reads the given bytes of a keyword. -/
def expect : Bytes → Bytes → Except DecodeError Bytes
  | [], s => .ok s
  | _ :: _, [] => .error (.unfinished .value)
  | k :: ks, b :: s => if b = k then expect ks s else .error (.malformed .keyword)

/-- The bytes of `null` after the first. -/
def nullTail : Bytes := [117, 108, 108]

/-- The bytes of `true` after the first. -/
def trueTail : Bytes := [114, 117, 101]

/-- The bytes of `false` after the first. -/
def falseTail : Bytes := [97, 108, 115, 101]

theorem length_skipBlanks_le (s : Bytes) : (skipBlanks s).length ≤ s.length :=
  (List.dropWhile_sublist isBlank).length_le

theorem length_of_expect {word s rest : Bytes} (h : expect word s = .ok rest) :
    rest.length ≤ s.length := by
  induction word generalizing s with
  | nil => cases h; exact Nat.le_refl _
  | cons k ks ih =>
    cases s with
    | nil => simp [expect] at h
    | cons b s =>
      rw [expect] at h
      split at h
      · exact Nat.le_succ_of_le (ih h)
      · simp at h

end Guestbook.Json
