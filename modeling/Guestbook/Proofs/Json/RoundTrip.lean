import Guestbook.Proofs.Json.Layout

/-!
# Messages are read back

The encoding of a message, or of a list of messages, is read as what it encodes, whatever follows
it. So the bytes that a board puts into its cache decode to the messages it put there, and different
messages have different bytes.

## Main definitions
- `Faithful`: an encoding that is read back

## Main statements
- `readMessage_encodeMessage`, `readMessages_encodeMessages`: reading from the front of the bytes
- `decodeMessages_encodeMessages`: a list of messages decodes to itself
- `faithful_encodings`: messages and lists of messages
-/

namespace Guestbook.Json

open Ascii

/-! ## Items with commas between them -/

/-- Every item but the first comes after a comma. -/
theorem separated_cons (item : Bytes) (items : List Bytes) :
    separated (item :: items) = item ++ items.flatMap fun item => comma :: item := by
  induction items generalizing item with
  | nil => rw [separated, List.flatMap_nil, List.append_nil]
  | cons next items ih => rw [separated, ih, List.flatMap_cons, List.cons_append]

/-! ## Messages -/

/-- An encoded message is read back. -/
theorem readMessage_encodeMessage (msg : Message) (rest : Bytes) :
    readMessage (encodeMessage msg ++ rest) = .ok (msg, rest) := by
  obtain ⟨entries, s, hencode, hs, hcarries⟩ := exists_writesEntries msg
  rw [hencode, List.cons_append, List.append_assoc, List.singleton_append]
  exact (readMessage_object .nil _).trans (readMembers_of_completes hs hcarries.completes true rest)

/-! ## Lists of messages -/

/-- One element of a list is read as its message. -/
private theorem readElements_element (read : List Message) (first : Bool) (msg : Message)
    (rest : Bytes) :
    readElements read first (entryAt first (encodeMessage msg ++ rest))
      = readElements (msg :: read) false rest := by
  have hnext : readNext first (entryAt first (encodeMessage msg ++ rest))
      = .ok (.element (encodeMessage msg ++ rest)) :=
    readNext_spelled first .nil .nil (derives_encodeMessage msg) rest
  rw [readElements_eq, hnext]
  simp only [readMessage_encodeMessage]

/-- A list ends at its closing bracket. -/
private theorem readElements_end {read : List Message} {first : Bool} {rest : Bytes} :
    readElements read first (closeBracket :: rest) = .ok (read.reverse, rest) := by
  have hnext : readNext first (closeBracket :: rest) = .ok (.done rest) := by
    rw [readNext, skipBlanks_cons (by decide)]
    exact if_pos rfl
  rw [readElements_eq, hnext]

/-- The elements of a list after the first, each with its comma. -/
private theorem readElements_tail (read msgs : List Message) (rest : Bytes) :
    readElements read false
        ((msgs.map encodeMessage).flatMap (fun item => comma :: item) ++ closeBracket :: rest)
      = .ok (read.reverse ++ msgs, rest) := by
  induction msgs generalizing read with
  | nil =>
    rw [List.append_nil]
    exact readElements_end
  | cons msg msgs ih =>
    rw [List.map_cons, List.flatMap_cons, List.append_assoc, List.cons_append]
    refine (readElements_element read false msg _).trans ?_
    rw [ih, List.reverse_cons, List.append_assoc]
    rfl

/-- An encoded list of messages is read back. -/
theorem readMessages_encodeMessages (msgs : List Message) (rest : Bytes) :
    readMessages (encodeMessages msgs ++ rest) = .ok (msgs, rest) := by
  have hopen : isBlank openBracket = false := by decide
  rw [encodeMessages, List.cons_append, readMessages, skipBlanks_cons hopen]
  refine (if_pos rfl).trans ?_
  rw [List.append_assoc]
  cases msgs with
  | nil => exact readElements_end
  | cons msg msgs =>
    -- The first element has no comma before it.
    rw [List.map_cons, separated_cons, List.append_assoc]
    exact (readElements_element [] true msg _).trans (readElements_tail [msg] msgs rest)

/-! ## Whole encodings -/

/-- What is read back whatever follows it is read back from the whole of its encoding. -/
theorem finish_of_reads {α : Type} {encode : α → Bytes} {read : Bytes → Read α}
    (h : ∀ x rest, read (encode x ++ rest) = .ok (x, rest)) (x : α) :
    finish (read (encode x)) = .ok x := by
  have hread := h x []
  rw [List.append_nil] at hread
  rw [hread]
  rfl

/-- A list of messages decodes to itself. -/
@[simp] theorem decodeMessages_encodeMessages (msgs : List Message) :
    decodeMessages (encodeMessages msgs) = .ok msgs :=
  finish_of_reads readMessages_encodeMessages msgs

/-- Every encoding is read back, from the front of any bytes and from the whole of its own, and none
is the start of another. -/
structure Faithful {α : Type} (encode : α → Bytes) (read : Bytes → Read α)
    (decode : Bytes → Except DecodeError α) : Prop where
  reads : ∀ x rest, read (encode x ++ rest) = .ok (x, rest)
  decodes : ∀ x, decode (encode x) = .ok x
  injective : ∀ x y, encode x = encode y → x = y
  prefixFree : ∀ x y, encode x <+: encode y → x = y

/-- What is read back whatever follows it is encoded faithfully. -/
private theorem Faithful.of_reads {α : Type} {encode : α → Bytes} {read : Bytes → Read α}
    (h : ∀ x rest, read (encode x ++ rest) = .ok (x, rest)) :
    Faithful encode read fun s => finish (read s) := by
  have hprefixFree : ∀ x y, encode x <+: encode y → x = y := by
    rintro x y ⟨rest, hrest⟩
    -- Reading the longer encoding answers both values.
    have hx := h x rest
    have hy := h y []
    rw [hrest] at hx
    rw [List.append_nil, hx] at hy
    exact congrArg Prod.fst (Except.ok.inj hy)
  exact ⟨h, finish_of_reads h, fun x y hxy => hprefixFree x y (hxy ▸ List.prefix_refl _),
    hprefixFree⟩

/-- Every message and every list of messages decodes to itself, so two of them never have the same
encoding. -/
theorem faithful_encodings :
    Faithful encodeMessage readMessage decodeMessage ∧
      Faithful encodeMessages readMessages decodeMessages :=
  ⟨.of_reads readMessage_encodeMessage, .of_reads readMessages_encodeMessages⟩

end Guestbook.Json
