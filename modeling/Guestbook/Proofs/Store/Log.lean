import Guestbook.Proofs.Message
import Guestbook.Proofs.Store.Memory

/-!
# A store that keeps a log

A store that only the board writes holds the records of a list of messages, each under its own id,
and its counter has issued all of their ids. Such a list is in id order, and every operation of the
store is one on the list: a query is a filter, a put under a new id appends, a delete filters.

## Main definitions
- `MemoryStore.messages`, `MemoryStore.messagesIn`: what a store holds, read as messages
- `MemoryStore.Keeps`: a store holds a list of messages

## Main statements
- `map_filter_inRange`, `messagesIn_eq_filter`: a range within another
- `Keeps.idsIncrease`: the messages are in id order
- `Keeps.append`, `Keeps.erase`: the writes
-/

namespace Guestbook.MemoryStore

variable {s t : MemoryStore}

/-! ## What a store holds -/

/-- The messages of a store, in key order. -/
def messages (s : MemoryStore) : List Message :=
  s.records.values.map fun r => r.toMessage.1

/-- The messages of the records with an id in a range, in key order. -/
def messagesIn (low high : Int64) (s : MemoryStore) : List Message :=
  (s.records.values.filter (inRange Bin.id low high)).map fun r => r.toMessage.1

theorem Passed.messagesIn (h : s.Passed t) (low high : Int64) :
    t.messagesIn low high = s.messagesIn low high := by
  obtain ⟨gate, -, rfl⟩ := h
  rfl

/-- Of any records, those of a smaller range above zero are read by leaving out ids below its
start. -/
theorem map_filter_inRange (records : List Record) {low high : Int64} (hlow : 0 ≤ low) :
    (records.filter (inRange Bin.id low high)).map (fun r => r.toMessage.1)
      = ((records.filter (inRange Bin.id 0 high)).map fun r => r.toMessage.1).filter
          fun m => low ≤ m.id := by
  have hrange : ∀ r : Record, inRange Bin.id low high r
      = (decide (low ≤ r.toMessage.1.id) && inRange Bin.id 0 high r) := by
    intro r
    unfold inRange
    split
    · -- The id that the message is read with is the one that the range tests.
      next n hn =>
      have hid : r.toMessage.1.id = n := by
        show (r.readInt Bin.id).1 = n
        rw [Record.readInt, hn]
      rw [hid, Bool.eq_iff_iff]
      simp only [Bool.and_eq_true, decide_eq_true_eq]
      constructor
      · rintro ⟨h, h'⟩
        exact ⟨h, Int64.le_trans hlow h, h'⟩
      · rintro ⟨h, -, h'⟩
        exact ⟨h, h'⟩
    · -- A record without an id is in no range.
      rw [Bool.and_false]
  rw [List.filter_map, List.filter_filter, List.filter_congr fun r _ => hrange r]
  rfl

/-- A smaller range above zero is read by leaving out ids below its start. -/
theorem messagesIn_eq_filter (s : MemoryStore) {low high : Int64} (hlow : 0 ≤ low) :
    s.messagesIn low high = (s.messagesIn 0 high).filter fun m => low ≤ m.id :=
  map_filter_inRange s.records.values hlow

/-- A smaller range above zero holds no more messages. -/
theorem length_messagesIn_le (s : MemoryStore) {low low' : Int64} (high : Int64) (hlow : 0 ≤ low)
    (hle : low ≤ low') : (s.messagesIn low' high).length ≤ (s.messagesIn low high).length := by
  rw [s.messagesIn_eq_filter hlow, s.messagesIn_eq_filter (Int64.le_trans hlow hle),
    ← List.countP_eq_length_filter, ← List.countP_eq_length_filter]
  apply List.countP_mono_left
  intro m _ hm
  rw [decide_eq_true_eq] at hm ⊢
  exact Int64.le_trans hle hm

theorem length_messagesIn_le_size (s : MemoryStore) (low high : Int64) :
    (s.messagesIn low high).length ≤ s.records.size := by
  rw [messagesIn, List.length_map]
  apply Nat.le_trans (List.length_filter_le _ _)
  rw [SortedMap.values, List.length_map]
  exact Nat.le_refl _

/-- The store holds the records of `log`, and its counter has issued `issued` ids, theirs among
them. -/
structure Keeps (s : MemoryStore) (log : List Message) (issued : Int) : Prop where
  entries : s.records.entries = log.map fun m => (m.id, Record.ofMessage m)
  counts : s.Counts issued
  issued_nonneg : 0 ≤ issued
  ids : ∀ m ∈ log, 1 ≤ m.id.toInt ∧ m.id.toInt ≤ issued

namespace Keeps

variable {log : List Message} {issued : Int}

/-- A new store keeps the empty log. -/
theorem empty (hrecords : s.records = .empty) (hcounter : s.counterRecord = none) :
    s.Keeps [] 0 where
  entries := by rw [hrecords]; rfl
  counts := .inl ⟨hcounter, rfl⟩
  issued_nonneg := Int.le_refl 0
  ids := fun _ h => absurd h List.not_mem_nil

/-- The same records and counter keep the same log. -/
theorem congr (h : s.Keeps log issued) (hrecords : t.records = s.records)
    (hcounter : t.counterRecord = s.counterRecord) : t.Keeps log issued where
  entries := by rw [hrecords, h.entries]
  counts := by
    rw [Counts, hcounter]
    exact h.counts
  issued_nonneg := h.issued_nonneg
  ids := h.ids

/-- What passes the gate keeps the log. -/
theorem passed (h : s.Keeps log issued) (ht : s.Passed t) : t.Keeps log issued := by
  obtain ⟨gate, -, rfl⟩ := ht
  exact h.congr rfl rfl

/-! ## Reading -/

/-- The messages of a log are in id order. -/
theorem idsIncrease (h : s.Keeps log issued) : Message.IdsIncrease log := by
  -- The map of records is sorted by key, and each key is the id of its message.
  have hsorted := s.records.sorted
  rw [h.entries, List.pairwise_map] at hsorted
  exact hsorted

theorem values (h : s.Keeps log issued) : s.records.values = log.map Record.ofMessage := by
  rw [SortedMap.values, h.entries, List.map_map]
  rfl

theorem size (h : s.Keeps log issued) : s.records.size = log.length := by
  rw [SortedMap.size, h.entries, List.length_map]

theorem messages (h : s.Keeps log issued) : s.messages = log := by
  rw [MemoryStore.messages, h.values, Record.map_fst_toMessage_ofMessage]

private theorem inRange_ofMessage (low high : Int64) (m : Message) :
    inRange Bin.id low high (Record.ofMessage m) = (low ≤ m.id && m.id ≤ high) := by
  rw [inRange, Record.find?_ofMessage_id]

/-- A range of ids is read by filtering the log. -/
theorem messagesIn (h : s.Keeps log issued) (low high : Int64) :
    s.messagesIn low high = log.filter fun m => low ≤ m.id && m.id ≤ high := by
  rw [MemoryStore.messagesIn, h.values, List.filter_map, Record.map_fst_toMessage_ofMessage]
  apply List.filter_congr
  intro m _
  exact inRange_ofMessage low high m

theorem contains (h : s.Keeps log issued) (key : Int64) :
    s.records.contains key = decide (key ∈ log.map (·.id)) := by
  rw [Bool.eq_iff_iff, SortedMap.contains_iff, decide_eq_true_eq, h.entries]
  constructor
  · -- Each key of the map is the id of a message.
    rintro ⟨entry, hentry, rfl⟩
    obtain ⟨m, hm, rfl⟩ := List.mem_map.mp hentry
    exact List.mem_map_of_mem hm
  · intro hkey
    obtain ⟨m, hm, rfl⟩ := List.mem_map.mp hkey
    exact ⟨_, List.mem_map_of_mem hm, rfl⟩

/-- There are no more messages than ids issued. -/
theorem length_le (h : s.Keeps log issued) : (log.length : Int) ≤ issued := by
  have hnonneg := h.issued_nonneg
  have hlength := h.idsIncrease.length_le h.ids (by omega)
  omega

/-! ## Writing -/

/-- The counter may move on. -/
theorem increment {r : Record} (h : s.Keeps log issued) {next : Int} (hnext : issued ≤ next)
    (hcounts : t.Counts next) (ht : Passed { s with counterRecord := some r } t) :
    t.Keeps log next := by
  have hcounts' := hcounts
  obtain ⟨gate, -, rfl⟩ := ht
  refine ⟨h.entries, hcounts', Int.le_trans h.issued_nonneg hnext, ?_⟩
  intro m hm
  exact ⟨(h.ids m hm).1, Int.le_trans (h.ids m hm).2 hnext⟩

/-- A message put under an id above all others comes to the end of the log. -/
theorem append (h : s.Keeps log issued) {m : Message} (hpositive : 1 ≤ m.id.toInt)
    (hissued : m.id.toInt ≤ issued) (habove : ∀ m' ∈ log, m'.id < m.id)
    (ht : Passed (s.insertRaw m.id (Record.ofMessage m)) t) : t.Keeps (log ++ [m]) issued := by
  obtain ⟨gate, -, rfl⟩ := ht
  refine ⟨?_, h.counts, h.issued_nonneg, ?_⟩
  · show SortedMap.insertEntry m.id (Record.ofMessage m) s.records.entries = _
    rw [h.entries, List.map_append]
    -- The new key is above those of all entries.
    apply SortedMap.insertEntry_of_lt _
    intro entry hentry
    obtain ⟨m', hm', rfl⟩ := List.mem_map.mp hentry
    exact habove m' hm'
  · intro m' hm'
    rcases List.mem_append.mp hm' with hm' | hm'
    · exact h.ids m' hm'
    · obtain rfl := List.mem_singleton.mp hm'
      exact ⟨hpositive, hissued⟩

/-- A delete leaves out the message with the id. -/
theorem erase (h : s.Keeps log issued) {key : Int64}
    (ht : Passed { s with records := s.records.erase key } t) :
    t.Keeps (log.filter fun m => m.id ≠ key) issued := by
  obtain ⟨gate, -, rfl⟩ := ht
  refine ⟨?_, h.counts, h.issued_nonneg, ?_⟩
  · show SortedMap.eraseEntry key s.records.entries = _
    rw [h.entries, SortedMap.eraseEntry, List.filter_map]
    simp [Function.comp_def]
  · intro m hm
    exact h.ids m (List.mem_filter.mp hm).1

end Keeps

end Guestbook.MemoryStore
