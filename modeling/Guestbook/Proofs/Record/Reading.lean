import Mathlib.Data.List.Forall2
import Guestbook.Proofs.Record
import Guestbook.Proofs.SortedMap

/-!
# Reading loses what it reports

A message is read from four bins. Each of them gives its value to one field or, where it is missing
or of another type, a zero and one warning; nothing else in a record matters. So no warning means no
loss: the bins of the message that was read are the bins of the record.

## Main definitions
- `MessageBin`: the four bins with their names, types and fields
- `Record.usable?`, `Record.warning?`: what reading makes of one bin
- `Record.Decodes`: a message is what a record holds

## Main statements
- `field_toMessage`, `snd_toMessage`: the fields of a message, and the warnings
- `find?_ofMessage_toMessage`, `ofMessage_toMessage`: without a warning
- `toMessages_exact`: all of it, for lists of records
-/

namespace Guestbook

/-! ## Bins of a message -/

namespace BinType

/-- Whether a value is of a type. -/
def fits : BinType → BinValue → Bool
  | int, .int _ => true
  | str, .str _ => true
  | _, _ => false

/-- What a bin that cannot be used is read as. -/
def zero : BinType → BinValue
  | int => .int 0
  | str => .str ""

end BinType

/-- A bin of a message. -/
inductive MessageBin where
  | id
  | author
  | message
  | timestamp
  deriving DecidableEq, Repr

namespace MessageBin

/-- The bins in the order in which they are read. -/
def all : List MessageBin := [id, author, message, timestamp]

def name : MessageBin → String
  | id => Bin.id
  | author => Bin.author
  | message => Bin.message
  | timestamp => Bin.timestamp

/-- The type that a bin is to have. -/
def wanted : MessageBin → BinType
  | id | timestamp => .int
  | author | message => .str

/-- The field of a message that is kept in a bin. -/
def field (m : Message) : MessageBin → BinValue
  | id => .int m.id
  | author => .str m.author
  | message => .str m.text
  | timestamp => .int m.timestamp

end MessageBin

namespace Record

variable {r : Record} {bin name : String} {wanted : BinType}

/-! ## One bin -/

/-- The value of a bin, if it is of the wanted type. -/
def usable? (r : Record) (bin : String) (wanted : BinType) : Option BinValue :=
  (r.find? bin).filter wanted.fits

/-- The warning about a bin, if it cannot be used. -/
def warning? (r : Record) (bin : String) (wanted : BinType) : Option Event :=
  match r.find? bin with
  | none => some (.binMissing bin wanted)
  | some value => if wanted.fits value then none else some (.binMistyped bin wanted value.kind)

/-- There is no warning about a bin that holds a value of the wanted type. -/
theorem warning?_eq_none_iff :
    r.warning? bin wanted = none ↔
      ∃ value, r.find? bin = some value ∧ wanted.fits value = true := by
  unfold warning?
  cases r.find? bin with
  | none => simp
  | some value => simp

/-- A bin without a warning is used as it is. -/
theorem usable?_of_warning (h : r.warning? bin wanted = none) :
    r.usable? bin wanted = r.find? bin := by
  obtain ⟨value, hfind, hfits⟩ := warning?_eq_none_iff.mp h
  rw [usable?, hfind]
  exact Option.filter_some_pos hfits

/-- A report about a bin is a warning. -/
theorem severity_warning? {event : Event} (h : r.warning? bin wanted = some event) :
    event.severity = .warn := by
  unfold warning? at h
  split at h
  · rw [← Option.some.inj h, Event.severity]
  · split at h
    · exact nomatch h
    · rw [← Option.some.inj h, Event.severity]

/-- An integer is read from a usable bin, with a warning about any other. -/
theorem readInt_spec (r : Record) (bin : String) :
    .int (r.readInt bin).1 = (r.usable? bin .int).getD BinType.int.zero ∧
      (r.readInt bin).2 = (r.warning? bin .int).toList := by
  unfold readInt usable? warning?
  cases r.find? bin with
  | none => exact ⟨rfl, rfl⟩
  | some value => cases value <;> exact ⟨rfl, rfl⟩

/-- So is a text. -/
theorem readStr_spec (r : Record) (bin : String) :
    .str (r.readStr bin).1 = (r.usable? bin .str).getD BinType.str.zero ∧
      (r.readStr bin).2 = (r.warning? bin .str).toList := by
  unfold readStr usable? warning?
  cases r.find? bin with
  | none => exact ⟨rfl, rfl⟩
  | some value => cases value <;> exact ⟨rfl, rfl⟩

/-! ## One record -/

/-- A message holds in each field what stands in its bin, or a zero. -/
def Decodes (r : Record) (m : Message) : Prop :=
  ∀ b : MessageBin, b.field m = (r.usable? b.name b.wanted).getD b.wanted.zero

/-- The warnings about a record, one for each bin that cannot be used. -/
def warnings (r : Record) : List Event :=
  MessageBin.all.filterMap fun b => r.warning? b.name b.wanted

theorem field_toMessage (r : Record) : r.Decodes (toMessage r).1 := by
  intro b
  cases b with
  | id => exact (readInt_spec r Bin.id).1
  | author => exact (readStr_spec r Bin.author).1
  | message => exact (readStr_spec r Bin.message).1
  | timestamp => exact (readInt_spec r Bin.timestamp).1

theorem snd_toMessage (r : Record) : (toMessage r).2 = r.warnings := by
  show (r.readInt Bin.id).2 ++ (r.readStr Bin.author).2 ++ (r.readStr Bin.message).2
    ++ (r.readInt Bin.timestamp).2 = _
  rw [(readInt_spec r Bin.id).2, (readStr_spec r Bin.author).2, (readStr_spec r Bin.message).2,
    (readInt_spec r Bin.timestamp).2, warnings, List.filterMap_eq_flatMap_toList]
  simp [MessageBin.all, MessageBin.name, MessageBin.wanted]

theorem warning?_of_warnings (h : r.warnings = []) (b : MessageBin) :
    r.warning? b.name b.wanted = none :=
  List.filterMap_eq_nil_iff.mp h b (by cases b <;> decide)

/-! ## Writing what was read -/

theorem find?_ofMessage (m : Message) (b : MessageBin) :
    (ofMessage m).find? b.name = some (b.field m) := by
  cases b with
  | id => exact find?_ofMessage_id m
  | author => exact find?_ofMessage_author m
  | message => exact find?_ofMessage_message m
  | timestamp => exact find?_ofMessage_timestamp m

/-- The record of a message has the four bins and no other. -/
theorem contains_ofMessage_iff {m : Message} :
    (ofMessage m).contains name = true ↔ ∃ b : MessageBin, b.name = name := by
  constructor
  · -- The record is made by four insertions into an empty one.
    intro hcontains
    simp only [ofMessage, SortedMap.ofList, List.foldl_cons, List.foldl_nil,
      SortedMap.contains_insert] at hcontains
    obtain rfl | rfl | rfl | rfl | hempty := hcontains
    · exact ⟨.timestamp, rfl⟩
    · exact ⟨.message, rfl⟩
    · exact ⟨.author, rfl⟩
    · exact ⟨.id, rfl⟩
    · exact absurd hempty Bool.false_ne_true
  · intro hname
    obtain ⟨b, rfl⟩ := hname
    rw [SortedMap.contains, find?_ofMessage]
    rfl

/-- Bins with the same names and values are equal, unless a value does not equal itself. -/
theorem sameBins_self {bins : List (String × BinValue)}
    (h : ∀ bin ∈ bins, bin.2.equals bin.2 = true) : sameBins bins bins = true := by
  induction bins with
  | nil => rfl
  | cons bin bins ih =>
    obtain ⟨name, value⟩ := bin
    obtain ⟨hhead, hrest⟩ := List.forall_mem_cons.mp h
    rw [sameBins, hhead, ih hrest, decide_eq_true rfl]
    rfl

/-- A message is kept in integers and texts, which equal themselves. -/
theorem equals_field (m : Message) (b : MessageBin) : (b.field m).equals (b.field m) = true := by
  cases b <;> exact decide_eq_true rfl

theorem equals_ofMessage (m : Message) : (ofMessage m).equals (ofMessage m) = true := by
  apply sameBins_self
  intro bin hbin
  obtain ⟨name, value⟩ := bin
  have hfind : (ofMessage m).find? name = some value := SortedMap.find?_of_mem hbin
  obtain ⟨b, rfl⟩ := contains_ofMessage_iff.mp (Option.isSome_of_eq_some hfind)
  rw [find?_ofMessage] at hfind
  obtain rfl := Option.some.inj hfind
  exact equals_field m b

/-- Without a warning the four bins are those of the message that was read. -/
theorem find?_ofMessage_toMessage (h : (toMessage r).2 = []) (b : MessageBin) :
    (ofMessage (toMessage r).1).find? b.name = r.find? b.name := by
  have hwarning := warning?_of_warnings ((snd_toMessage r).symm.trans h) b
  obtain ⟨value, hfind, -⟩ := warning?_eq_none_iff.mp hwarning
  rw [find?_ofMessage, field_toMessage r b, usable?_of_warning hwarning, hfind, Option.getD_some]

/-- Without a warning and without further bins a record is that of the message that was read. -/
theorem ofMessage_toMessage (h : (toMessage r).2 = [])
    (honly : ∀ name, r.contains name = true → ∃ b : MessageBin, b.name = name) :
    ofMessage (toMessage r).1 = r := by
  apply SortedMap.ext_find?
  intro name
  by_cases hname : ∃ b : MessageBin, b.name = name
  · obtain ⟨b, rfl⟩ := hname
    exact find?_ofMessage_toMessage h b
  · -- Neither record has any other bin.
    have hleft : ¬ (ofMessage (toMessage r).1).contains name = true :=
      mt contains_ofMessage_iff.mp hname
    have hright := mt (honly name) hname
    rw [SortedMap.contains, Option.not_isSome_iff_eq_none] at hleft hright
    rw [hleft, hright]

/-! ## Lists of records -/

/-- Reading a list of records gives each of them its message and the warnings about it, in their
order. A bin decides alone on its field and its warning. So messages come back as they were written,
and records without a warning as they were read. -/
theorem toMessages_exact :
    (∀ records, List.Forall₂ Decodes records (toMessages records).1 ∧
      (toMessages records).2 = records.flatMap warnings) ∧
    (∀ (r : Record) (b : MessageBin), (r.warning? b.name b.wanted = none ↔
        ∃ value, r.find? b.name = some value ∧ b.wanted.fits value = true) ∧
      ∀ event, r.warning? b.name b.wanted = some event → event.severity = .warn) ∧
    (∀ (r r' : Record) (b : MessageBin), r.find? b.name = r'.find? b.name →
      b.field (toMessage r).1 = b.field (toMessage r').1 ∧
        r.warning? b.name b.wanted = r'.warning? b.name b.wanted) ∧
    (∀ m, toMessage (ofMessage m) = (m, [])) ∧
    ∀ r : Record, (toMessage r).2 = [] →
      (∀ b : MessageBin, (ofMessage (toMessage r).1).find? b.name = r.find? b.name) ∧
      ((∀ name, r.contains name = true → ∃ b : MessageBin, b.name = name) →
        ofMessage (toMessage r).1 = r ∧ (ofMessage (toMessage r).1).equals r = true) := by
  refine ⟨?messages, ?warnings, ?others, toMessage_ofMessage, ?written⟩
  case messages =>
    intro records
    refine ⟨?_, List.flatMap_congr fun r _ => snd_toMessage r⟩
    exact List.forall₂_map_right_iff.mpr (List.forall₂_same.mpr fun r _ => field_toMessage r)
  case warnings => exact fun r b => ⟨warning?_eq_none_iff, fun _ => severity_warning?⟩
  case others =>
    -- Both sides look at the one bin only.
    intro r r' b hfind
    rw [field_toMessage r b, field_toMessage r' b, usable?, usable?, warning?, warning?, hfind]
    exact ⟨rfl, rfl⟩
  case written =>
    intro r hsilent
    refine ⟨find?_ofMessage_toMessage hsilent, fun honly => ?_⟩
    have hwhole := ofMessage_toMessage hsilent honly
    have hequals := equals_ofMessage (toMessage r).1
    rw [hwhole] at hequals
    exact ⟨hwhole, by rw [hwhole]; exact hequals⟩

/-- A record with a missing bin, two bins of other types and one that no message has. -/
def damagedRecord : Record :=
  .ofList [(Bin.id, .int 3), (Bin.author, .int 99), (Bin.timestamp, .str "yesterday"),
    (Bin.count, .float 0)]

/-- A message, kept with a further bin. -/
def greeting : Message := { id := 12, author := "ada", text := "hello", timestamp := -1 }

def annotatedGreeting : Record := (ofMessage greeting).insert Bin.count .nil

/-- Three warnings about the damaged record, none about the greeting, which is all there. -/
theorem toMessages_exact_damaged :
    List.Forall₂ Decodes [damagedRecord, annotatedGreeting] [{ id := 3 }, greeting] ∧
      (toMessages [damagedRecord, annotatedGreeting]).2 = [.binMistyped Bin.author .str "int",
        .binMissing Bin.message .str, .binMistyped Bin.timestamp .int "string"] ∧
      (toMessage annotatedGreeting).1.author = (toMessage (ofMessage greeting)).1.author ∧
      annotatedGreeting.find? Bin.message = some (.str "hello") ∧
      ofMessage (toMessage (ofMessage greeting)).1 = ofMessage greeting := by
  obtain ⟨hlists, -, hothers, -, hwritten⟩ := toMessages_exact
  have hmessages : (toMessages [damagedRecord, annotatedGreeting]).1 = [{ id := 3 }, greeting] := by
    decide +kernel
  have hdecodes := (hlists [damagedRecord, annotatedGreeting]).1
  rw [hmessages] at hdecodes
  have hauthor := (hothers annotatedGreeting (ofMessage greeting) .author (by decide +kernel)).1
  have htext := (hwritten annotatedGreeting (by decide +kernel)).1 .message
  have hwhole := (hwritten (ofMessage greeting) (by decide +kernel)).2
    fun _ hname => contains_ofMessage_iff.mp hname
  refine ⟨hdecodes, by decide +kernel, BinValue.str.inj hauthor, htext.symm.trans ?_, hwhole.1⟩
  decide +kernel

end Record

end Guestbook
