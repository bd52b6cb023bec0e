import Guestbook.Json.Skip
import Guestbook.Word

/-!
# Integers and texts

The values of the members of a message: signed words and texts. Any other value is named in the
problem it makes; a number or a string is read through before it is, a bracket is not.

## Main definitions
- `findValue`: what a value is found to be
- `readInteger`, `readText`: a signed word, and a text

## Main statements
- `length_of_readInteger`, `length_of_readText`: what is left is no longer than what was there
-/

namespace Guestbook.Json

open Ascii

/-- What a number is found to be. -/
def Number.found : Number → Found
  | .integer n => .integer n
  | .float => .float

/-- What the value starting with the byte `b` is found to be. Brackets are not looked into. -/
def findValue (b : UInt8) (rest : Bytes) : Except DecodeError Found :=
  if b = lowerN then (expect nullTail rest).map fun _ => .null
  else if b = lowerT then (expect trueTail rest).map fun _ => .boolean true
  else if b = lowerF then (expect falseTail rest).map fun _ => .boolean false
  else if b = minus then (readNumber true rest).map fun n => n.1.found
  else if isDigit b then (readNumber false (b :: rest)).map fun n => n.1.found
  else if b = quote then (readString rest).map fun s => .string s.1
  else if b = openBracket then .ok .list
  else if b = openBrace then .ok .object
  else .error (.malformed .valueWanted)

/-- The problem of a value that starts with the byte `b` where another type is wanted. -/
def mismatch (wanted : Wanted) (b : UInt8) (rest : Bytes) : DecodeError :=
  match findValue b rest with
  | .ok found => .misshapen (.wrongType found wanted)
  | .error e => e

/-- The signed word that a number is. -/
def wordOfNumber : Number → Except DecodeError Int64
  | .integer n =>
    if n ≤ Word.greatest then .ok (Int64.ofInt n) else .error (.misshapen (.integerRange n))
  | .float => .error (.misshapen (.wrongType .float .integer))

/-- Reads a number after its sign as a signed word. -/
def readWord (negative : Bool) (s : Bytes) : Read Int64 :=
  match readNumber negative s with
  | .error e => .error e
  | .ok (n, rest) =>
    match wordOfNumber n with
    | .error e => .error e
    | .ok w => .ok (w, rest)

/-- Reads an integer. -/
def readInteger (s : Bytes) : Read Int64 :=
  match skipBlanks s with
  | [] => .error (.unfinished .value)
  | b :: rest =>
    if b = minus then readWord true rest
    else if isDigit b then readWord false (b :: rest)
    else .error (mismatch .integer b rest)

/-- Reads a text. -/
def readText (s : Bytes) : Read String :=
  match skipBlanks s with
  | [] => .error (.unfinished .value)
  | b :: rest => if b = quote then readString rest else .error (mismatch .string b rest)

/-! ## What is left is no longer -/

theorem length_of_readWord {negative : Bool} {s rest : Bytes} {n : Int64}
    (h : readWord negative s = .ok (n, rest)) : rest.length < s.length := by
  unfold readWord at h
  split at h
  · simp at h
  · next hnumber =>
    split at h
    · simp at h
    · obtain ⟨-, rfl⟩ := Prod.mk.inj (Except.ok.inj h)
      exact length_of_readNumber hnumber

theorem length_of_readInteger {s rest : Bytes} {n : Int64}
    (h : readInteger s = .ok (n, rest)) : rest.length ≤ s.length := by
  unfold readInteger at h
  split at h
  · simp at h
  · next heq =>
    have := length_of_skipBlanks heq
    split at h
    · have := length_of_readWord h
      omega
    · split at h
      · have hword := length_of_readWord h
        simp only [List.length_cons] at hword
        omega
      · simp at h

theorem length_of_readText {s rest : Bytes} {t : String}
    (h : readText s = .ok (t, rest)) : rest.length ≤ s.length := by
  unfold readText at h
  split at h
  · simp at h
  · next heq =>
    have := length_of_skipBlanks heq
    split at h
    · have := length_of_readString h
      omega
    · simp at h

end Guestbook.Json
