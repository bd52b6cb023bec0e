import Guestbook.Json.Number
import Guestbook.Json.StringLiteral

/-!
# Passing over a value

The value of an unknown member is passed over, whatever it is. The open brackets are kept on a
stack, so values may nest to any depth.

## Main definitions
- `Bracket`: an open bracket
- `skip`: passes over a value, or over what is left inside of open brackets

## Main statements
- `length_of_skip`: what is left is no longer than what was there
-/

namespace Guestbook.Json

open Ascii

/-- An open bracket. -/
inductive Bracket where
  | list
  | object
  deriving DecidableEq, Repr

namespace Bracket

/-- The byte that closes a bracket. -/
def close : Bracket → UInt8
  | list => closeBracket
  | object => closeBrace

/-- The problem of bytes that end inside a bracket. -/
def unfinished : Bracket → Unfinished
  | list => .list
  | object => .object

/-- The problem of a value that is followed by neither a comma nor the closing byte. -/
def commaWanted : Bracket → Malformed
  | list => .listCommaWanted
  | object => .objectCommaWanted

end Bracket

/-! ## Parts of a value -/

/-- Passes over the colon after a key. -/
def readColon (s : Bytes) : Except DecodeError Bytes :=
  match skipBlanks s with
  | [] => .error (.unfinished .object)
  | b :: rest => if b = colon then .ok rest else .error (.malformed .colonWanted)

/-- Passes over a key and its colon. -/
def skipKey (s : Bytes) : Except DecodeError Bytes :=
  match skipBlanks s with
  | [] => .error (.unfinished .object)
  | b :: rest =>
    if b = quote then
      match skipString rest with
      | .error e => .error e
      | .ok rest => readColon rest
    else .error (.malformed .keyWanted)

/-- Passes over what stands before the value of an entry: a key in an object, nothing in a list. -/
def skipEntryStart (bracket : Bracket) (s : Bytes) : Except DecodeError Bytes :=
  match bracket with
  | .list => .ok s
  | .object => skipKey s

/-- Passes over a value without brackets that starts with the byte `b`. -/
def skipScalar (b : UInt8) (rest : Bytes) : Except DecodeError Bytes :=
  if b = lowerN then expect nullTail rest
  else if b = lowerT then expect trueTail rest
  else if b = lowerF then expect falseTail rest
  else if b = minus then skipNumber rest
  else if isDigit b then skipNumber (b :: rest)
  else if b = quote then skipString rest
  else .error (.malformed .valueWanted)

theorem length_of_skipBlanks {s rest : Bytes} {b : UInt8} (h : skipBlanks s = b :: rest) :
    rest.length < s.length := by
  have := length_skipBlanks_le s
  simp only [h, List.length_cons] at this
  omega

theorem length_of_readColon {s rest : Bytes} (h : readColon s = .ok rest) :
    rest.length < s.length := by
  unfold readColon at h
  split at h
  · simp at h
  · next heq =>
    split at h
    · cases h
      exact length_of_skipBlanks heq
    · simp at h

theorem length_of_skipKey {s rest : Bytes} (h : skipKey s = .ok rest) :
    rest.length < s.length := by
  unfold skipKey at h
  split at h
  · simp at h
  · next heq =>
    have := length_of_skipBlanks heq
    split at h
    · split at h
      · simp at h
      · next hstring =>
        have := length_of_skipString hstring
        have := length_of_readColon h
        omega
    · simp at h

theorem length_of_skipEntryStart {bracket : Bracket} {s rest : Bytes}
    (h : skipEntryStart bracket s = .ok rest) : rest.length ≤ s.length := by
  cases bracket with
  | list => cases h; exact Nat.le_refl _
  | object => exact Nat.le_of_lt (length_of_skipKey h)

theorem length_of_skipScalar {b : UInt8} {s rest : Bytes} (h : skipScalar b s = .ok rest) :
    rest.length ≤ s.length := by
  unfold skipScalar at h
  split at h
  · exact length_of_expect h
  · split at h
    · exact length_of_expect h
    · split at h
      · exact length_of_expect h
      · split at h
        · exact Nat.le_of_lt (length_of_skipNumber h)
        · split at h
          · exact Nat.le_of_lt_succ (length_of_skipNumber h)
          · split at h
            · exact Nat.le_of_lt (length_of_skipString h)
            · simp at h

/-! ## Values -/

/-- Where the reader stands. -/
inductive Stage where
  /-- Before a value. -/
  | value
  /-- Inside the innermost bracket, before or after its first entry. -/
  | inside (fresh : Bool)
  deriving DecidableEq, Repr

/-- A stage that takes no byte comes after one that does. -/
def Stage.weight : Stage → Nat
  | value => 0
  | inside _ => 1

/-- Passes over a value, or over the rest of the innermost bracket, and then over the rest of the
brackets around it. -/
def skip (stage : Stage) (stack : List Bracket) (s : Bytes) : Except DecodeError Bytes :=
  match stage, stack with
  | .value, stack =>
    match _h : skipBlanks s with
    | [] => .error (.unfinished .value)
    | b :: rest =>
      if b = openBracket then skip (.inside true) (.list :: stack) rest
      else if b = openBrace then skip (.inside true) (.object :: stack) rest
      else
        match _hscalar : skipScalar b rest with
        | .error e => .error e
        | .ok rest' => skip (.inside false) stack rest'
  | .inside _, [] => .ok s
  | .inside fresh, bracket :: stack =>
    match _h : skipBlanks s with
    | [] => .error (.unfinished bracket.unfinished)
    | b :: rest =>
      if b = bracket.close then skip (.inside false) stack rest
      -- The first entry has no comma before it, so its first byte is still to be read.
      else if fresh then
        match _hentry : skipEntryStart bracket (b :: rest) with
        | .error e => .error e
        | .ok rest' => skip .value (bracket :: stack) rest'
      else if b = comma then
        match _hentry : skipEntryStart bracket rest with
        | .error e => .error e
        | .ok rest' => skip .value (bracket :: stack) rest'
      else .error (.malformed bracket.commaWanted)
termination_by 2 * s.length + stage.weight
decreasing_by
  · have := length_of_skipBlanks _h
    simp only [Stage.weight]
    omega
  · have := length_of_skipBlanks _h
    simp only [Stage.weight]
    omega
  · have := length_of_skipBlanks _h
    have := length_of_skipScalar _hscalar
    simp only [Stage.weight]
    omega
  · have := length_of_skipBlanks _h
    simp only [Stage.weight]
    omega
  · have := length_of_skipBlanks _h
    have := length_of_skipEntryStart _hentry
    simp only [List.length_cons] at this
    simp only [Stage.weight]
    omega
  · have := length_of_skipBlanks _h
    have := length_of_skipEntryStart _hentry
    simp only [Stage.weight]
    omega

/-- Passing over a value, without the evidence that the recursion ends. -/
theorem skip_value (stack : List Bracket) (s : Bytes) :
    skip .value stack s = match skipBlanks s with
      | [] => .error (.unfinished .value)
      | b :: rest =>
        if b = openBracket then skip (.inside true) (.list :: stack) rest
        else if b = openBrace then skip (.inside true) (.object :: stack) rest
        else match skipScalar b rest with
          | .error e => .error e
          | .ok rest' => skip (.inside false) stack rest' := by
  rw [skip]
  split
  · next hblanks => rw [hblanks]
  · next hblanks =>
    simp only [hblanks]
    split
    · rfl
    split
    · rfl
    split <;> next hscalar => rw [hscalar]

/-- Passing over the rest of a bracket, without the evidence that the recursion ends. -/
theorem skip_inside (fresh : Bool) (bracket : Bracket) (stack : List Bracket) (s : Bytes) :
    skip (.inside fresh) (bracket :: stack) s = match skipBlanks s with
      | [] => .error (.unfinished bracket.unfinished)
      | b :: rest =>
        if b = bracket.close then skip (.inside false) stack rest
        else if fresh then
          match skipEntryStart bracket (b :: rest) with
          | .error e => .error e
          | .ok rest' => skip .value (bracket :: stack) rest'
        else if b = comma then
          match skipEntryStart bracket rest with
          | .error e => .error e
          | .ok rest' => skip .value (bracket :: stack) rest'
        else .error (.malformed bracket.commaWanted) := by
  rw [skip]
  split
  · next hblanks => rw [hblanks]
  · next hblanks =>
    simp only [hblanks]
    split
    · rfl
    split
    · split <;> next hentry => rw [hentry]
    split
    · split <;> next hentry => rw [hentry]
    · rfl

theorem length_of_skip {stage : Stage} {stack : List Bracket} {s rest : Bytes}
    (h : skip stage stack s = .ok rest) : rest.length ≤ s.length := by
  fun_induction skip stage stack s with
  | case1 => simp at h
  | case2 s stack rest' heq ih =>
    have := length_of_skipBlanks heq
    have := ih h
    omega
  | case3 s stack rest' heq _ ih =>
    have := length_of_skipBlanks heq
    have := ih h
    omega
  | case4 => simp at h
  | case5 s stack b rest' heq _ _ rest'' hscalar ih =>
    have := length_of_skipBlanks heq
    have := length_of_skipScalar hscalar
    have := ih h
    omega
  | case6 => cases h; exact Nat.le_refl _
  | case7 => simp at h
  | case8 s fresh bracket stack rest' heq ih =>
    have := length_of_skipBlanks heq
    have := ih h
    omega
  | case9 => simp at h
  | case10 s bracket stack b rest' heq _ rest'' hentry ih =>
    have := length_of_skipBlanks heq
    have hstart := length_of_skipEntryStart hentry
    have := ih h
    simp only [List.length_cons] at hstart
    omega
  | case11 => simp at h
  | case12 s fresh bracket stack rest' _ rest'' hentry heq _ ih =>
    have := length_of_skipBlanks heq
    have := length_of_skipEntryStart hentry
    have := ih h
    omega
  | case13 => simp at h

end Guestbook.Json
