import Guestbook.Json.Members

/-!
# Reading messages from JSON

A message is an object with its four members, or an array of the four values. Reading streams: the
first problem from left to right is the one reported, and a wrong shape is a problem only where it
shows.

## Main definitions
- `readMessage`, `readMessages`: a message, and a list of messages, from the front of the bytes
- `decodeMessage`, `decodeMessages`: the same from all of the bytes
-/

namespace Guestbook.Json

open Ascii

/-! ## Messages -/

/-- What comes next in a list. -/
inductive Next where
  /-- The list ends; the bytes after its closing bracket. -/
  | done (rest : Bytes)
  /-- An element; the bytes from there on. -/
  | element (s : Bytes)

/-- Finds the next element of a list, or its end. -/
def readNext (first : Bool) (s : Bytes) : Except DecodeError Next :=
  match skipBlanks s with
  | [] => .error (.unfinished .list)
  | b :: rest =>
    if b = closeBracket then .ok (.done rest)
    else if first then .ok (.element (b :: rest))
    else if b = comma then
      match skipBlanks rest with
      | [] => .error (.unfinished .value)
      | c :: rest =>
        if c = closeBracket then .error (.malformed .trailingComma)
        else .ok (.element (c :: rest))
    else .error (.malformed .listCommaWanted)

/-- Reads one value of the array form of a message, of which `index` came before. -/
def readPositional {α : Type} (index : Nat) (read : Bytes → Read α) (s : Bytes) : Read α :=
  match readNext (index = 0) s with
  | .error e => .error e
  -- A list that ends here is well-formed, but too short for a message.
  | .ok (.done _) => .error (.misshapen (.shortArray index))
  | .ok (.element s) => read s

/-- Reads the closing bracket of the array form of a message. -/
def readArrayEnd (s : Bytes) : Except DecodeError Bytes :=
  match skipBlanks s with
  | [] => .error (.unfinished .list)
  | b :: rest =>
    if b = closeBracket then .ok rest
    -- A comma before the bracket has a message of its own; any other element is one too many.
    else if b = comma ∧ (skipBlanks rest).head? = some closeBracket then
      .error (.malformed .trailingComma)
    else .error (.malformed .trailingBytes)

/-- Reads the array form of a message after its opening bracket. -/
def readArray (s : Bytes) : Except DecodeError (Message × Bytes) := do
  let (id, s) ← readPositional 0 readInteger s
  let (author, s) ← readPositional 1 readText s
  let (text, s) ← readPositional 2 readText s
  let (timestamp, s) ← readPositional 3 readInteger s
  let rest ← readArrayEnd s
  return ({ id, author, text, timestamp }, rest)

/-- Reads a message. -/
def readMessage (s : Bytes) : Read Message :=
  match skipBlanks s with
  | [] => .error (.unfinished .value)
  | b :: rest =>
    if b = openBrace then readMembers {} true rest
    else if b = openBracket then readArray rest
    else .error (mismatch .message b rest)

/-! ## What a message leaves is shorter -/

/-- A reading in two steps succeeds through a success of the first. -/
theorem ok_of_bind {α β : Type} {read : Except DecodeError α} {next : α → Except DecodeError β}
    {result : β} (h : (read >>= next) = .ok result) :
    ∃ x, read = .ok x ∧ next x = .ok result := by
  cases read with
  | error e => simp [bind, Except.bind] at h
  | ok x => exact ⟨x, rfl, h⟩

theorem length_of_readNext_element {first : Bool} {s rest : Bytes}
    (h : readNext first s = .ok (.element rest)) : rest.length ≤ s.length := by
  unfold readNext at h
  split at h
  · simp at h
  · next heq =>
    have := length_of_skipBlanks heq
    split at h
    · simp at h
    · split at h
      · cases h
        simp only [List.length_cons]
        omega
      · split at h
        · split at h
          · simp at h
          · next heq' =>
            have := length_of_skipBlanks heq'
            split at h
            · simp at h
            · cases h
              simp only [List.length_cons]
              omega
        · simp at h

theorem length_of_readPositional {α : Type} {index : Nat} {read : Bytes → Read α} {s rest : Bytes}
    {x : α} (hread : ∀ {s rest : Bytes} {x : α}, read s = .ok (x, rest) → rest.length ≤ s.length)
    (h : readPositional index read s = .ok (x, rest)) : rest.length ≤ s.length := by
  unfold readPositional at h
  split at h
  · simp at h
  · simp at h
  · next hnext =>
    have := length_of_readNext_element hnext
    have := hread h
    omega

theorem length_of_readArrayEnd {s rest : Bytes} (h : readArrayEnd s = .ok rest) :
    rest.length < s.length := by
  unfold readArrayEnd at h
  split at h
  · simp at h
  · next heq =>
    have := length_of_skipBlanks heq
    split at h
    · cases h; exact this
    · split at h <;> simp at h

theorem length_of_readArray {s rest : Bytes} {msg : Message}
    (h : readArray s = .ok (msg, rest)) : rest.length < s.length := by
  obtain ⟨⟨id, s₁⟩, hid, h⟩ := ok_of_bind h
  obtain ⟨⟨author, s₂⟩, hauthor, h⟩ := ok_of_bind h
  obtain ⟨⟨text, s₃⟩, htext, h⟩ := ok_of_bind h
  obtain ⟨⟨timestamp, s₄⟩, htimestamp, h⟩ := ok_of_bind h
  obtain ⟨s₅, hend, h⟩ := ok_of_bind h
  obtain ⟨-, rfl⟩ := Prod.mk.inj (Except.ok.inj h)
  have := length_of_readPositional length_of_readInteger hid
  have := length_of_readPositional length_of_readText hauthor
  have := length_of_readPositional length_of_readText htext
  have := length_of_readPositional length_of_readInteger htimestamp
  have := length_of_readArrayEnd hend
  omega

theorem length_of_readMessage {s rest : Bytes} {msg : Message}
    (h : readMessage s = .ok (msg, rest)) : rest.length < s.length := by
  unfold readMessage at h
  split at h
  · simp at h
  · next heq =>
    have := length_of_skipBlanks heq
    split at h
    · have := length_of_readMembers h
      omega
    · split at h
      · have := length_of_readArray h
        omega
      · simp at h

/-! ## Lists of messages -/

/-- Reads the elements of a list after its opening bracket, given those read before in reverse
order. -/
def readElements (read : List Message) (first : Bool) (s : Bytes) : Read (List Message) :=
  match _h : readNext first s with
  | .error e => .error e
  | .ok (.done rest) => .ok (read.reverse, rest)
  | .ok (.element s') =>
    match _hmessage : readMessage s' with
    | .error e => .error e
    | .ok (msg, rest) => readElements (msg :: read) false rest
termination_by s.length
decreasing_by
  have := length_of_readNext_element _h
  have := length_of_readMessage _hmessage
  omega

/-- Reading elements, without the evidence that the recursion ends. -/
theorem readElements_eq (read : List Message) (first : Bool) (s : Bytes) :
    readElements read first s = match readNext first s with
      | .error e => .error e
      | .ok (.done rest) => .ok (read.reverse, rest)
      | .ok (.element s') =>
        match readMessage s' with
        | .error e => .error e
        | .ok (msg, rest) => readElements (msg :: read) false rest := by
  rw [readElements]
  split
  · next hnext => rw [hnext]
  · next hnext => rw [hnext]
  · next hnext =>
    simp only [hnext]
    split <;> next hmessage => rw [hmessage]

/-- Reads a list of messages. -/
def readMessages (s : Bytes) : Read (List Message) :=
  match skipBlanks s with
  | [] => .error (.unfinished .value)
  | b :: rest =>
    if b = openBracket then readElements [] true rest else .error (mismatch .list b rest)

/-- Requires that nothing but blanks is left. -/
def finish {α : Type} (r : Read α) : Except DecodeError α :=
  match r with
  | .error e => .error e
  | .ok (x, rest) =>
    if (skipBlanks rest).isEmpty then .ok x else .error (.malformed .trailingBytes)

/-- The message that the bytes encode. -/
def decodeMessage (s : Bytes) : Except DecodeError Message := finish (readMessage s)

/-- The list of messages that the bytes encode. -/
def decodeMessages (s : Bytes) : Except DecodeError (List Message) := finish (readMessages s)

end Guestbook.Json
