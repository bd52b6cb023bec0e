import Guestbook.Json.Literal

/-!
# String literals

A string literal is read to its closing quote with its escapes replaced by the UTF-8 bytes of the
characters they stand for; only then are all its bytes required to be UTF-8. A string that nobody
needs is passed over without that: its escapes are only looked at one by one.

## Main definitions
- `readString`: reads a text after its opening quote
- `skipString`: passes over a string after its opening quote

## Main statements
- `length_of_readString`, `length_of_skipString`: a string takes at least its closing quote
-/

namespace Guestbook.Json

open Ascii

/-! ## Escapes -/

/-- The byte that a one-letter escape stands for. -/
def simpleEscape? (b : UInt8) : Option UInt8 :=
  if b = quote ∨ b = backslash ∨ b = slash then some b
  else if b = lowerB then some backspace
  else if b = lowerF then some formFeed
  else if b = lowerN then some lineFeed
  else if b = lowerR then some carriageReturn
  else if b = lowerT then some tab
  else none

/-- Reads four hexadecimal digits. -/
def readHex : Bytes → Read Nat
  | a :: b :: c :: d :: rest =>
    match hexDigit? a, hexDigit? b, hexDigit? c, hexDigit? d with
    | some a, some b, some c, some d => .ok (a * 4096 + b * 256 + c * 16 + d, rest)
    | _, _, _, _ => .error (.malformed .escape)
  | _ => .error (.unfinished .string)

/-- The UTF-8 bytes of a code point. -/
def codePointBytes (n : Nat) : Bytes :=
  Text.toBytes (String.singleton (Char.ofNat n))

/-- Whether a code unit is the first half of a surrogate pair. -/
def isLeading (n : Nat) : Bool := 0xD800 ≤ n && n ≤ 0xDBFF

/-- Whether a code unit is the second half of a surrogate pair. -/
def isTrailing (n : Nat) : Bool := 0xDC00 ≤ n && n ≤ 0xDFFF

/-- The code point of a surrogate pair. -/
def pairCodePoint (leading trailing : Nat) : Nat :=
  0x10000 + (leading - 0xD800) * 1024 + (trailing - 0xDC00)

/-- Reads the second half of a surrogate pair, itself an escape. -/
def readTrailing (leading : Nat) (s : Bytes) : Read Bytes :=
  match s with
  | [] => .error (.unfinished .string)
  | b :: s =>
    if b ≠ backslash then .error (.malformed .hexEscapeEnd)
    else
      match s with
      | [] => .error (.unfinished .string)
      | u :: s =>
        if u ≠ lowerU then .error (.malformed .hexEscapeEnd)
        else
          match readHex s with
          | .error e => .error e
          | .ok (n, rest) =>
            if isTrailing n then .ok (codePointBytes (pairCodePoint leading n), rest)
            else .error (.malformed .loneSurrogate)

/-- Reads what follows a backslash: the bytes of the character it stands for. -/
def readEscape (s : Bytes) : Read Bytes :=
  match s with
  | [] => .error (.unfinished .string)
  | b :: s =>
    match simpleEscape? b with
    | some c => .ok ([c], s)
    | none =>
      if b ≠ lowerU then .error (.malformed .escape)
      else
        match readHex s with
        | .error e => .error e
        | .ok (n, rest) =>
          -- The second half of a pair cannot come first.
          if isTrailing n then .error (.malformed .loneSurrogate)
          else if isLeading n then readTrailing n rest
          else .ok (codePointBytes n, rest)

/-- Passes over what follows a backslash; half a surrogate pair is as good as any other unit. -/
def skipEscape (s : Bytes) : Except DecodeError Bytes :=
  match s with
  | [] => .error (.unfinished .string)
  | b :: s =>
    match simpleEscape? b with
    | some _ => .ok s
    | none =>
      if b ≠ lowerU then .error (.malformed .escape)
      else
        match readHex s with
        | .error e => .error e
        | .ok (_, rest) => .ok rest

/-! ## What an escape leaves is shorter -/

theorem length_of_readHex {s rest : Bytes} {n : Nat} (h : readHex s = .ok (n, rest)) :
    rest.length < s.length := by
  unfold readHex at h
  split at h
  · split at h
    · cases h
      simp only [List.length_cons]
      omega
    · simp at h
  · simp at h

theorem length_of_readTrailing {leading : Nat} {s bs rest : Bytes}
    (h : readTrailing leading s = .ok (bs, rest)) : rest.length < s.length := by
  unfold readTrailing at h
  split at h
  · simp at h
  · split at h
    · simp at h
    · split at h
      · simp at h
      · split at h
        · simp at h
        · split at h
          · simp at h
          · next heq =>
            split at h
            · obtain ⟨-, rfl⟩ := Prod.mk.inj (Except.ok.inj h)
              have := length_of_readHex heq
              simp only [List.length_cons]
              omega
            · simp at h

theorem length_of_readEscape {s bs rest : Bytes} (h : readEscape s = .ok (bs, rest)) :
    rest.length < s.length := by
  unfold readEscape at h
  split at h
  · simp at h
  · split at h
    · cases h
      exact Nat.lt_succ_self _
    · split at h
      · simp at h
      · split at h
        · simp at h
        · next heq =>
          have hhex := length_of_readHex heq
          split at h
          · simp at h
          · split at h
            · have := length_of_readTrailing h
              simp only [List.length_cons]
              omega
            · obtain ⟨-, rfl⟩ := Prod.mk.inj (Except.ok.inj h)
              simp only [List.length_cons]
              omega

theorem length_of_skipEscape {s rest : Bytes} (h : skipEscape s = .ok rest) :
    rest.length < s.length := by
  unfold skipEscape at h
  split at h
  · simp at h
  · split at h
    · cases h
      exact Nat.lt_succ_self _
    · split at h
      · simp at h
      · split at h
        · simp at h
        · next heq =>
          cases h
          have := length_of_readHex heq
          simp only [List.length_cons]
          omega

/-! ## Strings -/

/-- Reads the bytes of a string up to its closing quote, after those already read, which stand in
reverse order. -/
def readStringBytes (read : Bytes) (s : Bytes) : Read Bytes :=
  match s with
  | [] => .error (.unfinished .string)
  | b :: rest =>
    if b = quote then .ok (read.reverse, rest)
    else if b = backslash then
      match _h : readEscape rest with
      | .error e => .error e
      | .ok (bs, rest') => readStringBytes (bs.reverse ++ read) rest'
    else if b < space then .error (.malformed .controlCharacter)
    else readStringBytes (b :: read) rest
termination_by s.length
decreasing_by
  · have := length_of_readEscape _h
    simp only [List.length_cons]
    omega
  · exact Nat.lt_succ_self _

/-- Reads a text after its opening quote. -/
def readString (s : Bytes) : Read String :=
  match readStringBytes [] s with
  | .error e => .error e
  | .ok (bs, rest) =>
    match Text.ofBytes? bs with
    | some text => .ok (text, rest)
    | none => .error (.malformed .codePoint)

/-- Passes over a string after its opening quote. -/
def skipString (s : Bytes) : Except DecodeError Bytes :=
  match s with
  | [] => .error (.unfinished .string)
  | b :: rest =>
    if b = quote then .ok rest
    else if b = backslash then
      match _h : skipEscape rest with
      | .error e => .error e
      | .ok rest' => skipString rest'
    else if b < space then .error (.malformed .controlCharacter)
    else skipString rest
termination_by s.length
decreasing_by
  · have := length_of_skipEscape _h
    simp only [List.length_cons]
    omega
  · exact Nat.lt_succ_self _

/-- Passing over a string, without the evidence that the recursion ends. -/
theorem skipString_cons (b : UInt8) (rest : Bytes) :
    skipString (b :: rest) =
      if b = quote then .ok rest
      else if b = backslash then
        match skipEscape rest with
        | .error e => .error e
        | .ok rest' => skipString rest'
      else if b < space then .error (.malformed .controlCharacter)
      else skipString rest := by
  rw [skipString]
  split
  · rfl
  split
  · split <;> next hescape => rw [hescape]
  · rfl

theorem length_of_readStringBytes {read s bs rest : Bytes}
    (h : readStringBytes read s = .ok (bs, rest)) : rest.length < s.length := by
  fun_induction readStringBytes read s with
  | case1 => simp at h
  | case2 => cases h; exact Nat.lt_succ_self _
  | case3 => simp at h
  | case4 read tail bs' rest' heq _ ih =>
    have := length_of_readEscape heq
    have := ih h
    simp only [List.length_cons]
    omega
  | case5 => simp at h
  | case6 read b tail _ _ _ ih =>
    have := ih h
    simp only [List.length_cons]
    omega

theorem length_of_readString {s rest : Bytes} {text : String}
    (h : readString s = .ok (text, rest)) : rest.length < s.length := by
  unfold readString at h
  split at h
  · simp at h
  · next heq =>
    split at h
    · cases h
      exact length_of_readStringBytes heq
    · simp at h

theorem length_of_skipString {s rest : Bytes} (h : skipString s = .ok rest) :
    rest.length < s.length := by
  fun_induction skipString s with
  | case1 => simp at h
  | case2 => cases h; exact Nat.lt_succ_self _
  | case3 => simp at h
  | case4 tail rest' heq _ ih =>
    have := length_of_skipEscape heq
    have := ih h
    simp only [List.length_cons]
    omega
  | case5 => simp at h
  | case6 b tail _ _ _ ih =>
    have := ih h
    simp only [List.length_cons]
    omega

end Guestbook.Json
