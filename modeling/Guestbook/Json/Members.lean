import Guestbook.Json.Scalar
import Guestbook.Message

/-!
# Objects

A message as an object: its four members in any order, each once, among any other members. A member
that comes again is refused at its key, a missing one at the closing brace.

## Main definitions
- `Partial`: the members read so far
- `readMembers`: reads the members after the opening brace

## Main statements
- `length_of_readMembers`: an object takes at least its closing brace
-/

namespace Guestbook.Json

open Ascii

/-- The members of a message read so far. -/
structure Partial where
  id : Option Int64 := none
  author : Option String := none
  text : Option String := none
  timestamp : Option Int64 := none

namespace Partial

/-- Whether a member has been read. -/
def has (p : Partial) : Member → Bool
  | .id => p.id.isSome
  | .author => p.author.isSome
  | .message => p.text.isSome
  | .timestamp => p.timestamp.isSome

/-- The message of all four members, or the first one missing. -/
def toMessage (p : Partial) : Except DecodeError Message :=
  -- Members are missed in the order of the fields.
  match p.id, p.author, p.text, p.timestamp with
  | some id, some author, some text, some timestamp => .ok { id, author, text, timestamp }
  | none, _, _, _ => .error (.misshapen (.memberMissing .id))
  | _, none, _, _ => .error (.misshapen (.memberMissing .author))
  | _, _, none, _ => .error (.misshapen (.memberMissing .message))
  | _, _, _, none => .error (.misshapen (.memberMissing .timestamp))

end Partial

/-- Reads an integer for a member. -/
def readIntegerFor (put : Int64 → Partial) (s : Bytes) : Read Partial :=
  match readInteger s with
  | .error e => .error e
  | .ok (n, rest) => .ok (put n, rest)

/-- Reads a text for a member. -/
def readTextFor (put : String → Partial) (s : Bytes) : Read Partial :=
  match readText s with
  | .error e => .error e
  | .ok (t, rest) => .ok (put t, rest)

/-- Reads the value of a member. -/
def readValue (p : Partial) (m : Member) (s : Bytes) : Read Partial :=
  match m with
  | .id => readIntegerFor (fun n => { p with id := some n }) s
  | .author => readTextFor (fun t => { p with author := some t }) s
  | .message => readTextFor (fun t => { p with text := some t }) s
  | .timestamp => readIntegerFor (fun n => { p with timestamp := some n }) s

/-- Reads colon and value after a key. A member that comes again is refused at its key; the value of
an unknown key is passed over. -/
def readEntry (p : Partial) (key : String) (s : Bytes) : Read Partial :=
  match Member.ofName? key with
  | some m =>
    -- Refused before its colon is looked at.
    if p.has m then .error (.misshapen (.memberRepeated m))
    else
      match readColon s with
      | .error e => .error e
      | .ok rest => readValue p m rest
  | none =>
    match readColon s with
    | .error e => .error e
    | .ok rest =>
      match skip .value [] rest with
      | .error e => .error e
      | .ok rest => .ok (p, rest)

/-- Reads up to the opening quote of the next key, given the next byte `b`. -/
def readKeyStart (first : Bool) (b : UInt8) (rest : Bytes) : Except DecodeError Bytes :=
  if first then
    if b = quote then .ok rest else .error (.malformed .keyWanted)
  else if b = comma then
    match skipBlanks rest with
    | [] => .error (.unfinished .value)
    | c :: rest =>
      if c = quote then .ok rest
      else if c = closeBrace then .error (.malformed .trailingComma)
      else .error (.malformed .keyWanted)
  else .error (.malformed .objectCommaWanted)

/-- Reads the key of the next entry, given the next byte `b`, and the entry. -/
def readNextEntry (p : Partial) (first : Bool) (b : UInt8) (rest : Bytes) : Read Partial :=
  match readKeyStart first b rest with
  | .error e => .error e
  | .ok rest =>
    match readString rest with
    | .error e => .error e
    | .ok (key, rest) => readEntry p key rest

/-! ## What an entry leaves is shorter -/

theorem length_of_readIntegerFor {put : Int64 → Partial} {p : Partial} {s rest : Bytes}
    (h : readIntegerFor put s = .ok (p, rest)) : rest.length ≤ s.length := by
  unfold readIntegerFor at h
  split at h
  · simp at h
  · next heq =>
    obtain ⟨-, rfl⟩ := Prod.mk.inj (Except.ok.inj h)
    exact length_of_readInteger heq

theorem length_of_readTextFor {put : String → Partial} {p : Partial} {s rest : Bytes}
    (h : readTextFor put s = .ok (p, rest)) : rest.length ≤ s.length := by
  unfold readTextFor at h
  split at h
  · simp at h
  · next heq =>
    obtain ⟨-, rfl⟩ := Prod.mk.inj (Except.ok.inj h)
    exact length_of_readText heq

theorem length_of_readValue {p p' : Partial} {m : Member} {s rest : Bytes}
    (h : readValue p m s = .ok (p', rest)) : rest.length ≤ s.length := by
  cases m with
  | id => exact length_of_readIntegerFor h
  | author => exact length_of_readTextFor h
  | message => exact length_of_readTextFor h
  | timestamp => exact length_of_readIntegerFor h

theorem length_of_readEntry {p p' : Partial} {key : String} {s rest : Bytes}
    (h : readEntry p key s = .ok (p', rest)) : rest.length ≤ s.length := by
  unfold readEntry at h
  split at h
  · split at h
    · simp at h
    · split at h
      · simp at h
      · next hcolon =>
        have := length_of_readColon hcolon
        have := length_of_readValue h
        omega
  · split at h
    · simp at h
    · next hcolon =>
      have := length_of_readColon hcolon
      split at h
      · simp at h
      · next hskip =>
        obtain ⟨-, rfl⟩ := Prod.mk.inj (Except.ok.inj h)
        have := length_of_skip hskip
        omega

theorem length_of_readKeyStart {first : Bool} {b : UInt8} {s rest : Bytes}
    (h : readKeyStart first b s = .ok rest) : rest.length ≤ s.length := by
  unfold readKeyStart at h
  split at h
  · split at h
    · cases h; exact Nat.le_refl _
    · simp at h
  · split at h
    · split at h
      · simp at h
      · next heq =>
        have := length_of_skipBlanks heq
        split at h
        · cases h; omega
        · split at h <;> simp at h
    · simp at h

theorem length_of_readNextEntry {p p' : Partial} {first : Bool} {b : UInt8} {s rest : Bytes}
    (h : readNextEntry p first b s = .ok (p', rest)) : rest.length < s.length := by
  unfold readNextEntry at h
  split at h
  · simp at h
  · next hstart =>
    have := length_of_readKeyStart hstart
    split at h
    · simp at h
    · next hkey =>
      have := length_of_readString hkey
      have := length_of_readEntry h
      omega

/-! ## All entries -/

/-- Reads the members of a message after its opening brace, given those read before. -/
def readMembers (p : Partial) (first : Bool) (s : Bytes) : Read Message :=
  match _h : skipBlanks s with
  | [] => .error (.unfinished .object)
  | b :: rest =>
    if b = closeBrace then p.toMessage.map fun msg => (msg, rest)
    else
      match _hentry : readNextEntry p first b rest with
      | .error e => .error e
      | .ok (p', rest') => readMembers p' false rest'
termination_by s.length
decreasing_by
  have := length_of_skipBlanks _h
  have := length_of_readNextEntry _hentry
  omega

/-- Reading members, without the evidence that the recursion ends. -/
theorem readMembers_eq (p : Partial) (first : Bool) (s : Bytes) :
    readMembers p first s = match skipBlanks s with
      | [] => .error (.unfinished .object)
      | b :: rest =>
        if b = closeBrace then p.toMessage.map fun msg => (msg, rest)
        else match readNextEntry p first b rest with
          | .error e => .error e
          | .ok (p', rest') => readMembers p' false rest' := by
  rw [readMembers]
  split
  · next hblanks => rw [hblanks]
  · next hblanks =>
    simp only [hblanks]
    split
    · rfl
    split <;> next hentry => rw [hentry]

theorem length_of_readMembers {p : Partial} {first : Bool} {s rest : Bytes} {msg : Message}
    (h : readMembers p first s = .ok (msg, rest)) : rest.length < s.length := by
  fun_induction readMembers p first s with
  | case1 => simp at h
  | case2 p first s tail heq =>
    have := length_of_skipBlanks heq
    cases hmessage : p.toMessage with
    | error e => simp [hmessage, Except.map] at h
    | ok m =>
      simp only [hmessage, Except.map, Except.ok.injEq, Prod.mk.injEq] at h
      rw [← h.2]
      exact this
  | case3 => simp at h
  | case4 p first s b tail heq _ p' rest' hentry ih =>
    have := length_of_skipBlanks heq
    have := length_of_readNextEntry hentry
    have := ih h
    omega

end Guestbook.Json
