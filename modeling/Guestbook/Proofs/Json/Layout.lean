import Guestbook.Json.Decode
import Guestbook.Proofs.Json.Skipping

/-!
# Messages in any layout

A message may be written in many ways: as an object with its members in any order, among members
under other names with whatever values, or as an array; with blanks between any two tokens, and with
any escapes in its texts. All of them decode to the message. An object that lacks one of the four
members, or has one of them twice, does not decode, nor does an array of any other length.

## Main definitions
- `WritesObject`, `WritesArray`: objects with their entries, arrays with their elements
- `Carries`: entries among which are the members of a message, each once
- `LayoutFree`: decoding does not depend on the layout

## Main statements
- `readMembers_of_completes`: the members that are still to come complete a message
- `once_of_readMembers`: what is read to its end has every member once
- `exists_writesEntries`: the encoding is one of the layouts
- `layoutFree`: messages in any layout
-/

namespace Guestbook.Json

open Ascii

/-! ## Members -/

namespace Partial

/-- The members read so far and one member of `msg`. -/
def take (p : Partial) (msg : Message) : Member → Partial
  | .id => { p with id := some msg.id }
  | .author => { p with author := some msg.author }
  | .message => { p with text := some msg.text }
  | .timestamp => { p with timestamp := some msg.timestamp }

end Partial

@[simp] theorem ofName?_name (m : Member) : Member.ofName? m.name = some m := by
  cases m <;> decide

/-- What may be written for the value of a member: the digits of the integer, or the text in any
spelling. A minus sign before a zero, a fraction or an exponent make a number that is no integer. -/
def SpellsMember (m : Message) : Member → Bytes → Prop
  | .id, v => v = integer m.id.toInt
  | .author, v => SpellsText m.author v
  | .message, v => SpellsText m.text v
  | .timestamp, v => v = integer m.timestamp.toInt

theorem readInteger_spelled {w rest : Bytes} (hw : Blanks w) (n : Int64) (hrest : EndsNumber rest) :
    readInteger (w ++ (integer n.toInt ++ rest)) = .ok (n, rest) := by
  have hread := readInteger_integer n hrest
  unfold readInteger at hread ⊢
  rw [skipBlanks_blanks hw]
  exact hread

theorem readText_spelled {w v rest : Bytes} {text : String} (hw : Blanks w)
    (hv : SpellsText text v) : readText (w ++ (v ++ rest)) = .ok (text, rest) := by
  obtain ⟨hs⟩ := hv
  rw [readText, skipBlanks_blanks hw, List.cons_append, skipBlanks_cons (by decide),
    List.append_assoc]
  exact (if_pos rfl).trans (readString_spells hs rest)

/-- The value of a member is read from any spelling of it. -/
theorem readValue_spelled (p : Partial) {m : Message} {member : Member} {w v rest : Bytes}
    (hw : Blanks w) (hv : SpellsMember m member v) (hrest : EndsNumber rest) :
    readValue p member (w ++ (v ++ rest)) = .ok (p.take m member, rest) := by
  cases member with
  | id =>
    obtain rfl : v = integer m.id.toInt := hv
    simp only [readValue, readIntegerFor, readInteger_spelled hw _ hrest, Partial.take]
  | author => simp only [readValue, readTextFor, readText_spelled hw hv, Partial.take]
  | message => simp only [readValue, readTextFor, readText_spelled hw hv, Partial.take]
  | timestamp =>
    obtain rfl : v = integer m.timestamp.toInt := hv
    simp only [readValue, readIntegerFor, readInteger_spelled hw _ hrest, Partial.take]

namespace Partial

/-- A member that was taken is there, and no other comes with it. -/
theorem has_take (p : Partial) (m : Message) (member other : Member) :
    (p.take m member).has other = (p.has other || decide (other = member)) := by
  cases member <;> cases other <;> simp [take, has]

/-- Members are taken in any order. -/
theorem take_take_comm {p : Partial} {m : Message} {member : Member} (h : p.take m member = p)
    (other : Member) : (p.take m other).take m member = p.take m other := by
  cases p
  cases member <;> cases other <;> simp_all [take]

theorem take_take_self (p : Partial) (m : Message) (member : Member) :
    (p.take m member).take m member = p.take m member := by
  cases member <;> rfl

/-- The message of four members of it. -/
theorem toMessage_of_take {p : Partial} {m : Message} (h : ∀ member, p.take m member = p) :
    p.toMessage = .ok m := by
  have hid := h .id
  have hauthor := h .author
  have hmessage := h .message
  have htimestamp := h .timestamp
  obtain ⟨id, author, text, timestamp⟩ := p
  simp only [take, Partial.mk.injEq, and_true, true_and] at hid hauthor hmessage htimestamp
  subst hid hauthor hmessage htimestamp
  rfl

/-- A message has all of its members. -/
theorem has_of_toMessage {p : Partial} {m : Message} (h : p.toMessage = .ok m) (member : Member) :
    p.has member = true := by
  obtain ⟨id, author, text, timestamp⟩ := p
  cases id <;> cases author <;> cases text <;> cases timestamp <;>
    simp [toMessage] at h
  cases member <;> rfl

end Partial

theorem of_readIntegerFor {put : Int64 → Partial} {p : Partial} {s rest : Bytes}
    (h : readIntegerFor put s = .ok (p, rest)) :
    (∃ n, p = put n) ∧ skip .value [] s = .ok rest := by
  unfold readIntegerFor at h
  split at h
  · exact nomatch h
  · next n tail hread =>
    obtain ⟨rfl, rfl⟩ := Prod.mk.inj (Except.ok.inj h)
    exact ⟨⟨n, rfl⟩, skip_of_readInteger hread⟩

theorem of_readTextFor {put : String → Partial} {p : Partial} {s rest : Bytes}
    (h : readTextFor put s = .ok (p, rest)) :
    (∃ text, p = put text) ∧ skip .value [] s = .ok rest := by
  unfold readTextFor at h
  split at h
  · exact nomatch h
  · next text tail hread =>
    obtain ⟨rfl, rfl⟩ := Prod.mk.inj (Except.ok.inj h)
    exact ⟨⟨text, rfl⟩, skip_of_readText hread⟩

/-- A member that is read comes to be there, and no other. Its value is left where it would be
passed over. -/
theorem of_readValue {p p' : Partial} {member : Member} {s rest : Bytes}
    (h : readValue p member s = .ok (p', rest)) :
    (∀ other, p'.has other = (p.has other || decide (other = member))) ∧
      skip .value [] s = .ok rest := by
  cases member with
  | id =>
    obtain ⟨⟨n, rfl⟩, hskip⟩ := of_readIntegerFor h
    exact ⟨fun other => by cases other <;> simp [Partial.has], hskip⟩
  | author =>
    obtain ⟨⟨text, rfl⟩, hskip⟩ := of_readTextFor h
    exact ⟨fun other => by cases other <;> simp [Partial.has], hskip⟩
  | message =>
    obtain ⟨⟨text, rfl⟩, hskip⟩ := of_readTextFor h
    exact ⟨fun other => by cases other <;> simp [Partial.has], hskip⟩
  | timestamp =>
    obtain ⟨⟨n, rfl⟩, hskip⟩ := of_readIntegerFor h
    exact ⟨fun other => by cases other <;> simp [Partial.has], hskip⟩

/-! ## Entries of an object -/

/-- The colon and the value of an entry, with the blanks around them. -/
inductive WritesValue (v : Bytes) : Bytes → Prop where
  | mk {w w' w'' : Bytes} (hw : Blanks w) (hw' : Blanks w') (hv : Derives .value v)
      (hw'' : Blanks w'') : WritesValue v (w ++ colon :: (w' ++ (v ++ w'')))

/-- An entry with a key in any spelling. -/
inductive WritesEntry (key : String) (v : Bytes) : Bytes → Prop where
  | mk {w s tail : Bytes} (hw : Blanks w) (hs : Spells (Text.toBytes key) s)
      (htail : WritesValue v tail) : WritesEntry key v (w ++ quote :: (s ++ quote :: tail))

/-- Entries with commas between them. -/
inductive WritesEntries : List (String × Bytes) → Bytes → Prop where
  | last {key : String} {v e : Bytes} (he : WritesEntry key v e) : WritesEntries [(key, v)] e
  | more {key : String} {v e s : Bytes} {entries : List (String × Bytes)}
      (he : WritesEntry key v e) (hs : WritesEntries entries s) :
      WritesEntries ((key, v) :: entries) (e ++ comma :: s)

/-- An object with its entries, and blanks around it. -/
inductive WritesObject : List (String × Bytes) → Bytes → Prop where
  | empty {w w' w'' : Bytes} (hw : Blanks w) (hw' : Blanks w') (hw'' : Blanks w'') :
      WritesObject [] (w ++ openBrace :: (w' ++ closeBrace :: w''))
  | entries {entries : List (String × Bytes)} {w s w' : Bytes} (hw : Blanks w)
      (hs : WritesEntries entries s) (hw' : Blanks w') :
      WritesObject entries (w ++ openBrace :: (s ++ closeBrace :: w'))

/-- An entry is what stands before a value, the value, and blanks. -/
theorem WritesEntry.exists_start {key : String} {v e : Bytes} (he : WritesEntry key v e) :
    ∃ start w, EntryStart .object start ∧ Derives .value v ∧ Blanks w ∧ e = start ++ (v ++ w) := by
  obtain @⟨w, s, _, hw, hs, @⟨w₁, w₂, w₃, hw₁, hw₂, hv, hw₃⟩⟩ := he
  refine ⟨w ++ quote :: (s ++ quote :: (w₁ ++ colon :: w₂)), w₃, .key hw hs.characters hw₁ hw₂, hv,
    hw₃, ?_⟩
  simp only [List.append_assoc, List.cons_append]

theorem WritesEntries.derives {entries : List (String × Bytes)} {s : Bytes}
    (hs : WritesEntries entries s) : Derives (.entries .object) s := by
  induction hs with
  | last he =>
    obtain ⟨start, w, hstart, hv, hw, rfl⟩ := he.exists_start
    exact .last hstart hv hw
  | more he _ ih =>
    obtain ⟨start, w, hstart, hv, hw, rfl⟩ := he.exists_start
    rw [List.append_assoc, List.append_assoc]
    exact .more hstart hv hw ih

/-- An entry where the members are read so far: all but the first come after a comma. -/
def entryAt (first : Bool) (s : Bytes) : Bytes := if first then s else comma :: s

theorem readMembers_congr {s s' : Bytes} (h : skipBlanks s = skipBlanks s') (p : Partial)
    (first : Bool) : readMembers p first s = readMembers p first s' := by
  rw [readMembers_eq, readMembers_eq, h]

theorem readColon_blanks {w : Bytes} (hw : Blanks w) (rest : Bytes) :
    readColon (w ++ colon :: rest) = .ok rest := by
  rw [readColon, skipBlanks_blanks hw, skipBlanks_cons (by decide)]
  exact if_pos rfl

/-- Key and colon of an entry are read, and the value after them as that of a member, or as that of
no member at all. -/
theorem readMembers_entryAt {key : String} {v e : Bytes} (he : WritesEntry key v e) :
    ∃ w w', Blanks w ∧ Blanks w' ∧ Derives .value v ∧
      (∀ p first rest, Member.ofName? key = none →
        readMembers p first (entryAt first (e ++ rest)) =
          (skip .value [] (w ++ (v ++ (w' ++ rest)))).bind (readMembers p false)) ∧
      ∀ p first rest member, Member.ofName? key = some member →
        readMembers p first (entryAt first (e ++ rest)) =
          if p.has member then .error (.misshapen (.memberRepeated member))
          else (readValue p member (w ++ (v ++ (w' ++ rest)))).bind fun read =>
            readMembers read.1 false read.2 := by
  obtain @⟨w, s, tail, hw, hs, hvalue⟩ := he
  obtain @⟨w₁, w₂, w₃, hw₁, hw₂, hv, hw₃⟩ := hvalue
  have hentry : ∀ p first rest,
      readMembers p first (entryAt first
          ((w ++ quote :: (s ++ quote :: (w₁ ++ colon :: (w₂ ++ (v ++ w₃))))) ++ rest)) =
        (readEntry p key (w₁ ++ colon :: (w₂ ++ (v ++ (w₃ ++ rest))))).bind fun read =>
          readMembers read.1 false read.2 := by
    intro p first rest
    have hassoc : (w ++ quote :: (s ++ quote :: (w₁ ++ colon :: (w₂ ++ (v ++ w₃))))) ++ rest
        = w ++ (quote :: (s ++ quote :: (w₁ ++ colon :: (w₂ ++ (v ++ (w₃ ++ rest)))))) := by
      simp only [List.append_assoc, List.cons_append]
    have hquote : ∀ t, skipBlanks (w ++ (quote :: t)) = quote :: t := by
      intro t
      rw [skipBlanks_blanks hw, skipBlanks_cons (by decide)]
    have hbrace : quote ≠ closeBrace := by decide
    have hcomma : comma ≠ closeBrace := by decide
    have hblank : isBlank comma = false := by decide
    rw [hassoc, readMembers_eq]
    cases first with
    | true =>
      simp only [entryAt, if_true, hquote, hbrace, if_false, readNextEntry, readKeyStart,
        readString_spells hs]
      cases readEntry p key _ <;> rfl
    | false =>
      simp only [entryAt, Bool.false_eq_true, if_false, skipBlanks_cons hblank, hcomma, if_true,
        hquote, readNextEntry, readKeyStart, readString_spells hs]
      cases readEntry p key _ <;> rfl
  refine ⟨w₂, w₃, hw₂, hw₃, hv, ?_, ?_⟩
  · intro p first rest hkey
    rw [hentry, readEntry, hkey]
    simp only [readColon_blanks hw₁]
    cases skip .value [] (w₂ ++ (v ++ (w₃ ++ rest))) <;> rfl
  · intro p first rest member hkey
    rw [hentry, readEntry, hkey]
    simp only [readColon_blanks hw₁]
    cases p.has member <;> rfl

section Entry

variable {key : String} {v e rest : Bytes} {p : Partial} {first : Bool}

/-- An entry under another name is passed over. -/
theorem readMembers_of_unknown (he : WritesEntry key v e) (hrest : EndsNumber rest)
    (hkey : Member.ofName? key = none) :
    readMembers p first (entryAt first (e ++ rest)) = readMembers p false rest := by
  obtain ⟨w, w', hw, hw', hv, hread, -⟩ := readMembers_entryAt he
  rw [hread p first rest hkey, skip_value_congr (skipBlanks_blanks hw _),
    skip_value_of_derives hv (endsNumber_blanks hw' hrest)]
  exact readMembers_congr (skipBlanks_blanks hw' rest) p false

/-- The entry of a member that is not there yet is read as its value. -/
theorem readMembers_of_due {m : Message} {member : Member} (he : WritesEntry key v e)
    (hrest : EndsNumber rest) (hkey : Member.ofName? key = some member)
    (hdue : p.has member = false) (hv : SpellsMember m member v) :
    readMembers p first (entryAt first (e ++ rest))
      = readMembers (p.take m member) false rest := by
  obtain ⟨w, w', hw, hw', -, -, hread⟩ := readMembers_entryAt he
  rw [hread p first rest member hkey, hdue,
    readValue_spelled p hw hv (endsNumber_blanks hw' hrest)]
  exact readMembers_congr (skipBlanks_blanks hw' rest) _ false

/-- If anything is read from the entry of a member on, the member was not there before, and the rest
is read with it. -/
theorem of_readMembers_known {member : Member} {result : Message × Bytes}
    (he : WritesEntry key v e) (hrest : EndsNumber rest) (hkey : Member.ofName? key = some member)
    (h : readMembers p first (entryAt first (e ++ rest)) = .ok result) :
    p.has member = false ∧ ∃ p', readMembers p' false rest = .ok result ∧
      ∀ other, p'.has other = (p.has other || decide (other = member)) := by
  obtain ⟨w, w', hw, hw', hv, -, hread⟩ := readMembers_entryAt he
  rw [hread p first rest member hkey] at h
  split at h
  · exact nomatch h
  · next hdue =>
    cases hvalue : readValue p member (w ++ (v ++ (w' ++ rest))) with
    | error e =>
      rw [hvalue] at h
      exact nomatch h
    | ok read =>
      obtain ⟨p', rest'⟩ := read
      rw [hvalue] at h
      -- The value that was read ends where the one that was written does.
      obtain ⟨hmembers, hskip⟩ := of_readValue hvalue
      rw [skip_value_congr (skipBlanks_blanks hw _),
        skip_value_of_derives hv (endsNumber_blanks hw' hrest)] at hskip
      obtain rfl := Except.ok.inj hskip
      have hrest' : readMembers p' false (w' ++ rest) = .ok result := h
      rw [readMembers_congr (skipBlanks_blanks hw' rest)] at hrest'
      exact ⟨Bool.eq_false_iff.mpr hdue, p', hrest', hmembers⟩

end Entry

/-! ## All entries -/

/-- The entries with a name. -/
def named (member : Member) (entries : List (String × Bytes)) : List (String × Bytes) :=
  entries.filter fun e => e.1 = member.name

/-- Entries hold the members of a message, each once, among any others. -/
def Carries (m : Message) (entries : List (String × Bytes)) : Prop :=
  ∀ member, ∃ v, named member entries = [(member.name, v)] ∧ SpellsMember m member v

/-- The members of `m` that are not there yet come with the entries, each once, and no others. -/
structure Completes (m : Message) (p : Partial) (entries : List (String × Bytes)) : Prop where
  held : ∀ member, p.has member = true → p.take m member = p ∧ named member entries = []
  due : ∀ member, p.has member = false →
    ∃ v, named member entries = [(member.name, v)] ∧ SpellsMember m member v

theorem ofName?_eq_some {key : String} {member : Member} (h : Member.ofName? key = some member) :
    key = member.name := by
  have hfound := List.find?_some h
  exact (of_decide_eq_true hfound).symm

theorem named_cons_of_none {key : String} (hkey : Member.ofName? key = none) (v : Bytes)
    (member : Member) (entries : List (String × Bytes)) :
    named member ((key, v) :: entries) = named member entries := by
  apply List.filter_cons_of_neg
  intro h
  have hname : key = member.name := of_decide_eq_true h
  rw [hname, ofName?_name] at hkey
  exact nomatch hkey

theorem named_cons_self (member : Member) (v : Bytes) (entries : List (String × Bytes)) :
    named member ((member.name, v) :: entries) = (member.name, v) :: named member entries :=
  List.filter_cons_of_pos (by simp)

theorem named_cons_of_ne {member other : Member} (h : other ≠ member) (v : Bytes)
    (entries : List (String × Bytes)) :
    named other ((member.name, v) :: entries) = named other entries := by
  apply List.filter_cons_of_neg
  intro heq
  have hname := congrArg Member.ofName? (of_decide_eq_true heq)
  simp only [ofName?_name, Option.some.injEq] at hname
  exact h hname.symm

/-- Entries that complete a message go on doing so after the first of them. -/
theorem Completes.of_unknown {m : Message} {p : Partial} {key : String} {v : Bytes}
    {entries : List (String × Bytes)} (h : Completes m p ((key, v) :: entries))
    (hkey : Member.ofName? key = none) : Completes m p entries := by
  constructor
  · intro member hhas
    rw [← named_cons_of_none hkey v]
    exact h.held member hhas
  · intro member hdue
    rw [← named_cons_of_none hkey v]
    exact h.due member hdue

/-- The entry of a member is one that is due, and once it is there the rest complete the message. -/
theorem Completes.of_known {m : Message} {p : Partial} {member : Member} {v : Bytes}
    {entries : List (String × Bytes)} (h : Completes m p ((member.name, v) :: entries)) :
    p.has member = false ∧ SpellsMember m member v ∧ Completes m (p.take m member) entries := by
  have hdue : p.has member = false := by
    cases hhas : p.has member with
    | false => rfl
    | true =>
      have hnone := (h.held member hhas).2
      rw [named_cons_self] at hnone
      exact absurd hnone (List.cons_ne_nil _ _)
  obtain ⟨v', hnamed, hspells⟩ := h.due member hdue
  rw [named_cons_self] at hnamed
  obtain ⟨hv, hnone⟩ := List.cons.inj hnamed
  obtain rfl := (Prod.mk.inj hv).2
  refine ⟨hdue, hspells, ?_, ?_⟩
  · intro other hhas
    by_cases hother : other = member
    · subst hother
      exact ⟨p.take_take_self m other, hnone⟩
    · rw [Partial.has_take, decide_eq_false hother, Bool.or_false] at hhas
      obtain ⟨htake, hnamed'⟩ := h.held other hhas
      rw [named_cons_of_ne hother] at hnamed'
      exact ⟨Partial.take_take_comm htake member, hnamed'⟩
  · intro other hother
    rw [Partial.has_take, Bool.or_eq_false_iff, decide_eq_false_iff_not] at hother
    have hother' := h.due other hother.1
    rw [named_cons_of_ne hother.2] at hother'
    exact hother'

/-- At the start of an object all members are still to come. -/
theorem Carries.completes {m : Message} {entries : List (String × Bytes)} (h : Carries m entries) :
    Completes m {} entries where
  held := by
    intro member hhas
    cases member <;> cases hhas
  due := fun member _ => h member

/-- Without entries nothing is due. -/
theorem Completes.toMessage {m : Message} {p : Partial} (h : Completes m p []) :
    p.toMessage = .ok m := by
  apply Partial.toMessage_of_take
  intro member
  cases hhas : p.has member with
  | true => exact (h.held member hhas).1
  | false =>
    obtain ⟨v, hnamed, -⟩ := h.due member hhas
    exact absurd hnamed (List.cons_ne_nil _ _).symm

theorem readMembers_close (p : Partial) (first : Bool) (rest : Bytes) :
    readMembers p first (closeBrace :: rest) = p.toMessage.map fun m => (m, rest) := by
  rw [readMembers_eq, skipBlanks_cons (by decide)]
  exact if_pos rfl

/-- One entry at the front of entries that complete a message. -/
private theorem readMembers_of_head {m : Message} {p : Partial} {key : String} {v e rest : Bytes}
    {entries : List (String × Bytes)} (he : WritesEntry key v e) (hrest : EndsNumber rest)
    (h : Completes m p ((key, v) :: entries)) (first : Bool) :
    ∃ p', Completes m p' entries ∧
      readMembers p first (entryAt first (e ++ rest)) = readMembers p' false rest := by
  cases hkey : Member.ofName? key with
  | none => exact ⟨p, h.of_unknown hkey, readMembers_of_unknown he hrest hkey⟩
  | some member =>
    obtain rfl := ofName?_eq_some hkey
    obtain ⟨hdue, hspells, hcompletes⟩ := h.of_known
    exact ⟨_, hcompletes, readMembers_of_due he hrest hkey hdue hspells⟩

/-- Entries that complete a message are read as the message. -/
theorem readMembers_of_completes {m : Message} {entries : List (String × Bytes)} {s : Bytes}
    (hs : WritesEntries entries s) {p : Partial} (h : Completes m p entries) (first : Bool)
    (rest : Bytes) :
    readMembers p first (entryAt first (s ++ closeBrace :: rest)) = .ok (m, rest) := by
  -- Each entry leaves the rest to complete the message from what is there then.
  induction hs generalizing p first with
  | last he =>
    obtain ⟨p', hcompletes, hread⟩ :=
      readMembers_of_head he (endsNumber_closeBrace rest) h first
    rw [hread, readMembers_close, hcompletes.toMessage]
    rfl
  | @more key v e s entries he hs ih =>
    obtain ⟨p', hcompletes, hread⟩ :=
      readMembers_of_head he (endsNumber_comma (s ++ closeBrace :: rest)) h first
    rw [List.append_assoc, List.cons_append, hread]
    exact ih hcompletes false

/-- How often a member is there or comes with the entries. -/
def occurrences (p : Partial) (entries : List (String × Bytes)) (member : Member) : Nat :=
  (p.has member).toNat + (named member entries).length

/-- One entry at the front of entries that are read to their end. -/
private theorem once_of_head {p : Partial} {key : String} {v e rest : Bytes}
    {entries : List (String × Bytes)} {result : Message × Bytes} {first : Bool}
    (he : WritesEntry key v e) (hrest : EndsNumber rest)
    (h : readMembers p first (entryAt first (e ++ rest)) = .ok result) :
    ∃ p', readMembers p' false rest = .ok result ∧
      ∀ member, occurrences p ((key, v) :: entries) member = occurrences p' entries member := by
  cases hkey : Member.ofName? key with
  | none =>
    rw [readMembers_of_unknown he hrest hkey] at h
    refine ⟨p, h, ?_⟩
    intro member
    rw [occurrences, occurrences, named_cons_of_none hkey]
  | some member =>
    obtain ⟨hdue, p', hread, hhas⟩ := of_readMembers_known he hrest hkey h
    obtain rfl := ofName?_eq_some hkey
    refine ⟨p', hread, ?_⟩
    intro other
    rw [occurrences, occurrences, hhas]
    by_cases hother : other = member
    · subst hother
      rw [named_cons_self, hdue, List.length_cons]
      simp [Nat.add_comm]
    · rw [named_cons_of_ne hother, decide_eq_false hother, Bool.or_false]

/-- Entries that are read to their end have every member once that was not there before. -/
theorem once_of_readMembers {entries : List (String × Bytes)} {s : Bytes}
    (hs : WritesEntries entries s) {p : Partial} {first : Bool} {rest : Bytes}
    {result : Message × Bytes}
    (h : readMembers p first (entryAt first (s ++ closeBrace :: rest)) = .ok result)
    (member : Member) : occurrences p entries member = 1 := by
  induction hs generalizing p first with
  | last he =>
    obtain ⟨p', hread, hoccurrences⟩ := once_of_head he (endsNumber_closeBrace rest) h
    rw [hoccurrences]
    -- At the closing brace all members are there.
    rw [readMembers_close] at hread
    cases hmessage : p'.toMessage with
    | error e =>
      rw [hmessage] at hread
      exact nomatch hread
    | ok m =>
      rw [occurrences, Partial.has_of_toMessage hmessage]
      rfl
  | @more key v e s entries he hs ih =>
    rw [List.append_assoc, List.cons_append] at h
    obtain ⟨p', hread, hoccurrences⟩ :=
      once_of_head he (endsNumber_comma (s ++ closeBrace :: rest)) h
    rw [hoccurrences]
    exact ih hread

/-! ## The array form -/

/-- Elements with commas between them, and blanks around each. -/
inductive WritesElements : List Bytes → Bytes → Prop where
  | last {w v w' : Bytes} (hw : Blanks w) (hv : Derives .value v) (hw' : Blanks w') :
      WritesElements [v] (w ++ (v ++ w'))
  | more {w v w' s : Bytes} {values : List Bytes} (hw : Blanks w) (hv : Derives .value v)
      (hw' : Blanks w') (hs : WritesElements values s) :
      WritesElements (v :: values) (w ++ (v ++ (w' ++ comma :: s)))

/-- An array with its elements, and blanks around it. -/
inductive WritesArray (values : List Bytes) : Bytes → Prop where
  | mk {w s w' : Bytes} (hw : Blanks w) (hs : WritesElements values s) (hw' : Blanks w') :
      WritesArray values (w ++ openBracket :: (s ++ closeBracket :: w'))

/-- An integer is written as a JSON value. -/
theorem derives_integer (n : Int) : Derives .value (integer n) := by
  have hunsigned : ∀ k, Unsigned (natural k) := by
    intro k
    have hplain := Unsigned.mk (integerPart_natural k) .none .none
    rwa [List.append_nil, List.append_nil] at hplain
  rw [integer]
  split
  · exact .scalar (.number (.negative (hunsigned _)))
  · exact .scalar (.number (.positive (hunsigned _)))

/-- What is written for the value of a member is a JSON value. -/
theorem SpellsMember.derives {m : Message} {member : Member} {v : Bytes}
    (h : SpellsMember m member v) : Derives .value v := by
  have htext : ∀ {text}, SpellsText text v → Derives .value v := by
    rintro text ⟨hs⟩
    exact .scalar (.string hs.characters)
  cases member with
  | id => exact Eq.symm h ▸ derives_integer _
  | author => exact htext h
  | message => exact htext h
  | timestamp => exact Eq.symm h ▸ derives_integer _

/-! ## The encoding -/

/-- The encoding of a value spells it. -/
theorem spellsMember_memberValue (m : Message) (member : Member) :
    SpellsMember m member (memberValue m member) := by
  cases member with
  | id => exact rfl
  | author => exact spellsText_quoted m.author
  | message => exact spellsText_quoted m.text
  | timestamp => exact rfl

/-- An entry without blanks. -/
theorem writesEntry_quoted (key : String) {v : Bytes} (hv : Derives .value v) :
    WritesEntry key v (quoted key ++ colon :: v) := by
  have hvalue : WritesValue v (colon :: v) := by
    have hcompact := WritesValue.mk .nil .nil hv .nil
    rwa [List.nil_append, List.nil_append, List.append_nil] at hcompact
  have hkey := spells_flatMap_escapeByte (Text.toBytes key)
  have hentry := WritesEntry.mk .nil hkey hvalue
  simpa [quoted] using hentry

/-- The entries that are written for a message. -/
theorem exists_writesEntries (m : Message) :
    ∃ entries s, encodeMessage m = openBrace :: (s ++ [closeBrace]) ∧ WritesEntries entries s ∧
      Carries m entries := by
  have hentry : ∀ k, WritesEntry k.name (memberValue m k) (member k (memberValue m k)) :=
    fun k => writesEntry_quoted k.name (spellsMember_memberValue m k).derives
  have hentries := (WritesEntries.last (hentry .timestamp)).more (hentry .message)
    |>.more (hentry .author) |>.more (hentry .id)
  refine ⟨_, _, rfl, hentries, ?_⟩
  intro k
  refine ⟨memberValue m k, ?_, spellsMember_memberValue m k⟩
  cases k <;> rfl

theorem derives_encodeMessage (m : Message) : Derives .value (encodeMessage m) := by
  obtain ⟨entries, s, hencode, hs, -⟩ := exists_writesEntries m
  exact hencode ▸ .bracketed hs.derives

/-! ## Elements of an array -/

/-- The next element of an array, after the blanks that the one before left. -/
theorem readNext_spelled (first : Bool) {w w' v : Bytes} (hw : Blanks w) (hw' : Blanks w')
    (hv : Derives .value v) (rest : Bytes) :
    readNext first (w ++ entryAt first (w' ++ (v ++ rest))) = .ok (.element (v ++ rest)) := by
  obtain ⟨⟨b, tail, rfl, hb⟩, -⟩ := hv.skips
  have hcomma : isBlank comma = false := by decide
  have hclose : comma ≠ closeBracket := by decide
  have hstart : skipBlanks (w' ++ b :: (tail ++ rest)) = b :: (tail ++ rest) := by
    rw [skipBlanks_blanks hw', skipBlanks_cons hb.blank]
  rw [readNext, skipBlanks_blanks hw]
  cases first with
  | true => simp only [entryAt, if_true, hstart, hb.closeBracket, if_false, List.cons_append]
  | false =>
    simp only [entryAt, Bool.false_eq_true, if_false, skipBlanks_cons hcomma, hclose, if_true,
      hstart, hb.closeBracket, List.cons_append]

theorem readPositional_spelled {α : Type} (read : Bytes → Read α) (index : Nat)
    {w w' v : Bytes} (hw : Blanks w) (hw' : Blanks w') (hv : Derives .value v) (rest : Bytes) :
    readPositional index read (w ++ entryAt (index = 0) (w' ++ (v ++ rest)))
      = read (v ++ rest) := by
  rw [readPositional, readNext_spelled _ hw hw' hv]

theorem readArrayEnd_blanks {w : Bytes} (hw : Blanks w) (rest : Bytes) :
    readArrayEnd (w ++ closeBracket :: rest) = .ok rest := by
  rw [readArrayEnd, skipBlanks_blanks hw, skipBlanks_cons (by decide)]
  exact if_pos rfl

/-- The array form of a message is read as the message. -/
theorem readArray_spelled {m : Message} {id author text timestamp s : Bytes}
    (hid : SpellsMember m .id id) (hauthor : SpellsMember m .author author)
    (htext : SpellsMember m .message text) (htimestamp : SpellsMember m .timestamp timestamp)
    (hs : WritesElements [id, author, text, timestamp] s) (rest : Bytes) :
    readArray (s ++ closeBracket :: rest) = .ok (m, rest) := by
  obtain _ | @⟨w₁, _, w₁', _, _, hw₁, hv₁, hw₁', hs⟩ := hs
  obtain _ | @⟨w₂, _, w₂', _, _, hw₂, hv₂, hw₂', hs⟩ := hs
  obtain _ | @⟨w₃, _, w₃', _, _, hw₃, hv₃, hw₃', hs⟩ := hs
  obtain @⟨w₄, _, w₄', hw₄, hv₄, hw₄'⟩ | @⟨_, _, _, _, _, _, _, _, hs⟩ := hs
  · -- Each value is read at the blanks that the one before left, and leaves its own.
    have hassoc : (w₁ ++ (id ++ (w₁' ++ comma :: (w₂ ++ (author ++ (w₂' ++ comma ::
          (w₃ ++ (text ++ (w₃' ++ comma :: (w₄ ++ (timestamp ++ w₄')))))))))))
            ++ closeBracket :: rest
        = w₁ ++ (id ++ (w₁' ++ comma :: (w₂ ++ (author ++ (w₂' ++ comma ::
          (w₃ ++ (text ++ (w₃' ++ comma :: (w₄ ++ (timestamp ++ (w₄' ++
            closeBracket :: rest))))))))))) := by
      simp only [List.append_assoc, List.cons_append]
    have hcomma : ∀ {w}, Blanks w → ∀ t, EndsNumber (w ++ comma :: t) :=
      fun hw t => endsNumber_blanks hw (endsNumber_comma t)
    have hclose := endsNumber_blanks hw₄' (endsNumber_closeBracket rest)
    have h₁ : ∀ t, readPositional 0 readInteger (w₁ ++ (id ++ (w₁' ++ comma :: t)))
        = .ok (m.id, w₁' ++ comma :: t) := by
      intro t
      obtain rfl : id = integer m.id.toInt := hid
      exact (readPositional_spelled _ 0 .nil hw₁ hv₁ _).trans
        (readInteger_integer m.id (hcomma hw₁' t))
    have h₂ : ∀ t, readPositional 1 readText (w₁' ++ comma :: (w₂ ++ (author ++ t)))
        = .ok (m.author, t) := fun t =>
      (readPositional_spelled _ 1 hw₁' hw₂ hv₂ t).trans
        (readText_spelled .nil hauthor)
    have h₃ : ∀ t, readPositional 2 readText (w₂' ++ comma :: (w₃ ++ (text ++ t)))
        = .ok (m.text, t) := fun t =>
      (readPositional_spelled _ 2 hw₂' hw₃ hv₃ t).trans
        (readText_spelled .nil htext)
    have h₄ : readPositional 3 readInteger (w₃' ++ comma :: (w₄ ++ (timestamp ++ (w₄' ++
        closeBracket :: rest)))) = .ok (m.timestamp, w₄' ++ closeBracket :: rest) := by
      obtain rfl : timestamp = integer m.timestamp.toInt := htimestamp
      exact (readPositional_spelled _ 3 hw₃' hw₄ hv₄ _).trans
        (readInteger_integer m.timestamp hclose)
    rw [hassoc]
    simp only [readArray, h₁, h₂, h₃, h₄, readArrayEnd_blanks hw₄', bind, Except.bind]
    rfl
  · exact nomatch hs

/-- What is left of an array with the elements `values` to come, up to its closing bracket. -/
inductive ElementsLeft (rest : Bytes) : List Bytes → Bytes → Prop where
  | done {w : Bytes} (hw : Blanks w) : ElementsLeft rest [] (w ++ closeBracket :: rest)
  | next {values : List Bytes} {w s : Bytes} (hw : Blanks w) (hs : WritesElements values s) :
      ElementsLeft rest values (w ++ comma :: (s ++ closeBracket :: rest))

section Positional

variable {α : Type} {read : Bytes → Read α} {x : α} {values : List Bytes} {s rest tail : Bytes}

/-- An element that is read is the next one, and what it leaves is left of the array. -/
theorem elementsLeft_of_element (hs : WritesElements values s)
    (hread : ∀ {s rest x}, read s = .ok (x, rest) → skip .value [] s = .ok rest)
    {w : Bytes} (hw : Blanks w) (index : Nat)
    (h : readPositional index read (w ++ entryAt (index = 0) (s ++ closeBracket :: rest))
      = .ok (x, tail)) :
    ∃ v values', values = v :: values' ∧ ElementsLeft rest values' tail := by
  cases hs with
  | @last w₁ v w₂ hw₁ hv hw₂ =>
    have hskip := skip_value_of_derives hv (endsNumber_blanks hw₂ (endsNumber_closeBracket rest))
    rw [List.append_assoc, List.append_assoc, readPositional_spelled _ _ hw hw₁ hv] at h
    obtain rfl := Except.ok.inj ((hread h).symm.trans hskip)
    exact ⟨v, [], rfl, .done hw₂⟩
  | @more w₁ v w₂ s values hw₁ hv hw₂ hs =>
    have hskip := skip_value_of_derives hv
      (endsNumber_blanks hw₂ (endsNumber_comma (s ++ closeBracket :: rest)))
    rw [List.append_assoc, List.append_assoc, List.append_assoc,
      readPositional_spelled _ _ hw hw₁ hv] at h
    obtain rfl := Except.ok.inj ((hread h).symm.trans hskip)
    exact ⟨v, values, rfl, .next hw₂ hs⟩

/-- After the first element another one is read only if there is one. -/
theorem ElementsLeft.of_readPositional (hs : ElementsLeft rest values s)
    (hread : ∀ {s rest x}, read s = .ok (x, rest) → skip .value [] s = .ok rest) {index : Nat}
    (h : readPositional (index + 1) read s = .ok (x, tail)) :
    ∃ v values', values = v :: values' ∧ ElementsLeft rest values' tail := by
  cases hs with
  | @done w hw =>
    have hnext : readNext (index + 1 = 0) (w ++ closeBracket :: rest) = .ok (.done rest) := by
      rw [readNext, skipBlanks_blanks hw, skipBlanks_cons (by decide)]
      exact if_pos rfl
    rw [readPositional, hnext] at h
    cases h
  | @next values w s hw hs =>
    exact elementsLeft_of_element hs hread hw (index + 1) h

end Positional

/-- An array ends after the last of its elements. -/
theorem ElementsLeft.of_readArrayEnd {rest tail s : Bytes} {values : List Bytes}
    (hs : ElementsLeft rest values s) (h : readArrayEnd s = .ok tail) : values = [] := by
  cases hs with
  | done => rfl
  | next hw hs =>
    have hcomma : comma ≠ closeBracket := by decide
    rw [readArrayEnd, skipBlanks_blanks hw, skipBlanks_cons (by decide)] at h
    simp only [hcomma, if_false] at h
    split at h <;> cases h

/-- An array that is read as a message has four elements. -/
theorem length_of_readArray_ok {values : List Bytes} {s rest : Bytes} {result : Message × Bytes}
    (hs : WritesElements values s) (h : readArray (s ++ closeBracket :: rest) = .ok result) :
    values.length = 4 := by
  obtain ⟨⟨id, s₁⟩, hid, h⟩ := ok_of_bind h
  obtain ⟨⟨author, s₂⟩, hauthor, h⟩ := ok_of_bind h
  obtain ⟨⟨text, s₃⟩, htext, h⟩ := ok_of_bind h
  obtain ⟨⟨timestamp, s₄⟩, htimestamp, h⟩ := ok_of_bind h
  obtain ⟨s₅, hend, -⟩ := ok_of_bind h
  obtain ⟨_, _, rfl, hleft₁⟩ :=
    elementsLeft_of_element hs skip_of_readInteger .nil 0 hid
  obtain ⟨_, _, rfl, hleft₂⟩ := hleft₁.of_readPositional skip_of_readText hauthor
  obtain ⟨_, _, rfl, hleft₃⟩ := hleft₂.of_readPositional skip_of_readText htext
  obtain ⟨_, _, rfl, hleft₄⟩ := hleft₃.of_readPositional skip_of_readInteger htimestamp
  obtain rfl := hleft₄.of_readArrayEnd hend
  rfl

/-! ## Messages -/

/-- Decoding does not depend on the layout, as long as every member is there once. -/
structure LayoutFree : Prop where
  /-- An object with the members of a message, in any order and among any others. -/
  object : ∀ (m : Message) (entries : List (String × Bytes)) (s : Bytes),
    WritesObject entries s → Carries m entries → decodeMessage s = .ok m
  /-- The array of the values of a message. -/
  array : ∀ (m : Message) (id author text timestamp s : Bytes), SpellsMember m .id id →
    SpellsMember m .author author → SpellsMember m .message text →
    SpellsMember m .timestamp timestamp → WritesArray [id, author, text, timestamp] s →
    decodeMessage s = .ok m
  /-- An object without one of the members. -/
  missing : ∀ (member : Member) (entries : List (String × Bytes)) (s : Bytes),
    WritesObject entries s → named member entries = [] → ∃ e, decodeMessage s = .error e
  /-- An object with one of the members twice, or more often. -/
  repeated : ∀ (member : Member) (entries : List (String × Bytes)) (s : Bytes),
    WritesObject entries s → 2 ≤ (named member entries).length → ∃ e, decodeMessage s = .error e
  /-- An array with fewer elements, or with more. -/
  length : ∀ (values : List Bytes) (s : Bytes), WritesArray values s → values.length ≠ 4 →
    ∃ e, decodeMessage s = .error e

/-- Nothing but blanks may be left of the bytes. -/
theorem decodeMessage_of_read {s w : Bytes} {m : Message} (hw : Blanks w)
    (h : readMessage s = .ok (m, w)) : decodeMessage s = .ok m := by
  have hempty : skipBlanks w = [] := by
    have hskip := skipBlanks_blanks hw []
    rwa [List.append_nil] at hskip
  rw [decodeMessage, h, finish, hempty]
  rfl

/-- What decodes was read from its front. -/
theorem read_of_decodeMessage {s : Bytes} {m : Message} (h : decodeMessage s = .ok m) :
    ∃ result, readMessage s = .ok result := by
  unfold decodeMessage finish at h
  split at h
  · exact nomatch h
  · next x rest hread => exact ⟨_, hread⟩

theorem readMessage_array {w : Bytes} (hw : Blanks w) (s : Bytes) :
    readMessage (w ++ openBracket :: s) = readArray s := by
  have hbrace : openBracket ≠ openBrace := by decide
  rw [readMessage, skipBlanks_blanks hw, skipBlanks_cons (by decide)]
  simp only [hbrace, if_false, if_true]

theorem readMessage_object {w : Bytes} (hw : Blanks w) (s : Bytes) :
    readMessage (w ++ openBrace :: s) = readMembers {} true s := by
  rw [readMessage, skipBlanks_blanks hw, skipBlanks_cons (by decide)]
  exact if_pos rfl

/-- An object that decodes has every member once. -/
theorem once_of_decodeMessage {entries : List (String × Bytes)} {s : Bytes} {m : Message}
    (hs : WritesObject entries s) (h : decodeMessage s = .ok m) (member : Member) :
    (named member entries).length = 1 := by
  obtain ⟨result, hread⟩ := read_of_decodeMessage h
  cases hs with
  | empty hw hw' hw'' =>
    -- At the end of an empty object the first member is missing.
    rw [readMessage_object hw, readMembers_congr (skipBlanks_blanks hw' _), readMembers_close]
      at hread
    exact nomatch hread
  | entries hw hs hw' =>
    rw [readMessage_object hw] at hread
    have hfirst : readMembers {} true (entryAt true (_ ++ closeBrace :: _)) = .ok result := hread
    have honce := once_of_readMembers hs hfirst member
    have hnone : ({} : Partial).has member = false := by cases member <;> rfl
    rw [occurrences, hnone] at honce
    simpa using honce

/-- A message decodes from any layout, and an object only with each of the members once. -/
theorem layoutFree : LayoutFree where
  object := by
    intro m entries s hs hcarries
    cases hs with
    | empty hw hw' hw'' =>
      obtain ⟨v, hnamed, -⟩ := hcarries .id
      exact absurd hnamed (List.cons_ne_nil _ _).symm
    | @entries _ w s w' hw hs hw' =>
      apply decodeMessage_of_read hw'
      rw [readMessage_object hw]
      exact readMembers_of_completes hs hcarries.completes true w'
  array := by
    intro m id author text timestamp s hid hauthor htext htimestamp hs
    obtain @⟨w, s, w', hw, hs, hw'⟩ := hs
    apply decodeMessage_of_read hw'
    rw [readMessage_array hw]
    exact readArray_spelled hid hauthor htext htimestamp hs w'
  missing := by
    intro member entries s hs hnone
    cases h : decodeMessage s with
    | error e => exact ⟨e, rfl⟩
    | ok m =>
      have honce := once_of_decodeMessage hs h member
      rw [hnone] at honce
      exact absurd honce (by decide)
  repeated := by
    intro member entries s hs htwice
    cases h : decodeMessage s with
    | error e => exact ⟨e, rfl⟩
    | ok m =>
      have honce := once_of_decodeMessage hs h member
      omega
  length := by
    intro values s hs hlength
    cases h : decodeMessage s with
    | error e => exact ⟨e, rfl⟩
    | ok m =>
      obtain ⟨result, hread⟩ := read_of_decodeMessage h
      obtain @⟨w, s, w', hw, hs, hw'⟩ := hs
      rw [readMessage_array hw] at hread
      exact absurd (length_of_readArray_ok hs hread) hlength

/-- A message with its members the other way round, a text in escapes, and a nested value first. -/
theorem layoutFree_scattered :
    decodeMessage (Text.toBytes
    " \x7b\"x\":[\x7b\x7d],\"timestamp\":-4,\"message\":\"\",\"author\":\"\\u0041\",\"id\":3\x7d\n")
      = .ok { id := 3, author := "A", text := "", timestamp := -4 } := by
  let m : Message := { id := 3, author := "A", text := "", timestamp := -4 }
  have hunit : CodeUnit 'A'.toNat (Text.toBytes "0041") :=
    .mk (w := 0) (x := 0) (y := 4) (z := 1) (by decide) (by decide) (by decide) (by decide)
  have hauthor : SpellsMember m .author (Text.toBytes "\"\\u0041\"") := by
    have hspells : Spells (Text.toBytes "A") (backslash :: lowerU :: Text.toBytes "0041") :=
      .unit hunit .nil
    exact .mk hspells
  have hnested : Derives .value (Text.toBytes "[\x7b\x7d]") :=
    .bracketed (.last (.element .nil) (.empty .object .nil) .nil)
  have hentries := (WritesEntries.last (writesEntry_quoted "id" (derives_integer 3)))
    |>.more (writesEntry_quoted "author" hauthor.derives)
    |>.more (writesEntry_quoted "message" (spellsMember_memberValue m .message).derives)
    |>.more (writesEntry_quoted "timestamp" (derives_integer (-4)))
    |>.more (writesEntry_quoted "x" hnested)
  have hbefore : Blanks (Text.toBytes " ") := by decide
  have hafter : Blanks (Text.toBytes "\n") := by decide
  have hobject := WritesObject.entries hbefore hentries hafter
  have hdecode := layoutFree.object m _ _ hobject fun
    | .id => ⟨_, rfl, rfl⟩
    | .author => ⟨_, rfl, hauthor⟩
    | .message => ⟨_, rfl, spellsMember_memberValue m .message⟩
    | .timestamp => ⟨_, rfl, rfl⟩
  exact (congrArg decodeMessage (by decide +kernel)).trans hdecode

end Guestbook.Json
