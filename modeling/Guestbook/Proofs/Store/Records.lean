import Guestbook.Proofs.Record
import Guestbook.Proofs.Store.Memory

/-!
# A store with well-formed records

Every record of a message has four bins, of which the one for the id names the key that the record
is held under. All keys were issued by the counter, so they lie between one and its value. Nothing
but a `put` adds a record, so this is kept as long as records are put under ids that were issued.

## Main definitions
- `Record.IsMessage`: a record with the four bins of a message, under its own id
- `MemoryStore.WellKept`: an idle store of such records whose counter stands at a value

## Main statements
- `WellKept.passed`, `WellKept.increment`: what keeps a store well
- `WellKept.preserves_put`, `WellKept.preserves_delete`: the operations that change records
-/

namespace Guestbook

/-! ## Records of messages -/

/-- A record with the four bins of a message and no other, whose id is `key`. -/
structure Record.IsMessage (r : Record) (key : Int64) : Prop where
  id : r.find? Bin.id = some (.int key)
  author : ∃ author, r.find? Bin.author = some (.str author)
  message : ∃ text, r.find? Bin.message = some (.str text)
  timestamp : ∃ time, r.find? Bin.timestamp = some (.int time)
  bins : ∀ bin, r.contains bin = true ↔ bin ∈ [Bin.id, Bin.author, Bin.message, Bin.timestamp]

theorem Record.isMessage_ofMessage (m : Message) : (Record.ofMessage m).IsMessage m.id where
  id := find?_ofMessage_id m
  author := ⟨m.author, find?_ofMessage_author m⟩
  message := ⟨m.text, find?_ofMessage_message m⟩
  timestamp := ⟨m.timestamp, find?_ofMessage_timestamp m⟩
  bins bin := by
    have hempty : (SortedMap.empty : Record).contains bin = false := rfl
    simp [ofMessage, SortedMap.ofList, SortedMap.contains_insert, hempty, or_comm, or_left_comm]

namespace MemoryStore

variable {s t : MemoryStore} {issued : Int}

/-- No attempt to connect is in flight, the counter stands at `issued`, and each record is that of a
message under an id that was issued. -/
structure WellKept (s : MemoryStore) (issued : Int) : Prop where
  idle : s.gate.connecting = false
  counts : s.Counts issued
  issued_nonneg : 0 ≤ issued
  records : ∀ entry ∈ s.records.entries,
    entry.2.IsMessage entry.1 ∧ 1 ≤ entry.1.toInt ∧ entry.1.toInt ≤ issued

namespace WellKept

/-- A new store is well kept. -/
theorem empty (hidle : s.gate.connecting = false) (hrecords : s.records = .empty)
    (hcounter : s.counterRecord = none) : s.WellKept 0 where
  idle := hidle
  counts := .inl ⟨hcounter, rfl⟩
  issued_nonneg := Int.le_refl 0
  records entry hentry := by
    rw [hrecords] at hentry
    cases hentry

theorem passed (h : s.WellKept issued) (ht : s.Passed t) : t.WellKept issued := by
  obtain ⟨gate, hidle, rfl⟩ := ht
  exact ⟨hidle, h.counts, h.issued_nonneg, h.records⟩

/-- The counter may move on. -/
theorem increment {r : Record} (h : s.WellKept issued) {next : Int} (hnext : issued ≤ next)
    (hcounts : t.Counts next) (ht : Passed { s with counterRecord := some r } t) :
    t.WellKept next := by
  obtain ⟨gate, hidle, rfl⟩ := ht
  refine ⟨hidle, hcounts, Int.le_trans h.issued_nonneg hnext, ?_⟩
  intro entry hentry
  obtain ⟨hmessage, hpositive, hle⟩ := h.records entry hentry
  exact ⟨hmessage, hpositive, Int.le_trans hle hnext⟩

/-- The record of a message may be put under its id, if that was issued. -/
theorem preserves_put {key : Int64} {r : Record} (hmessage : r.IsMessage key)
    (hpositive : 1 ≤ key.toInt) (hissued : key.toInt ≤ issued) :
    Action.Preserves (WellKept · issued) (put key r) := by
  apply Action.Preserves.of_satisfies
  intro s h
  apply (satisfies_put h.idle key r).imp
  · intro _ t hpost
    obtain ⟨-, gate, hidle, rfl⟩ := hpost
    refine ⟨hidle, h.counts, h.issued_nonneg, ?_⟩
    intro entry hentry
    -- An entry is the new one or was there before.
    rcases SortedMap.mem_insertEntry hentry with hnew | hold
    · rw [hnew]
      exact ⟨hmessage, hpositive, hissued⟩
    · exact h.records entry hold
  · intro why t hpost
    exact h.passed hpost.2

/-- A record may be deleted. -/
theorem preserves_delete (issued : Int) (key : Int64) :
    Action.Preserves (WellKept · issued) (delete key) := by
  apply Action.Preserves.of_satisfies
  intro s h
  apply (satisfies_delete h.idle key).imp
  · intro existed t hpost
    obtain ⟨-, gate, hidle, rfl⟩ := hpost
    refine ⟨hidle, h.counts, h.issued_nonneg, ?_⟩
    intro entry hentry
    exact h.records entry (List.mem_filter.mp hentry).1
  · intro why t hpost
    exact h.passed hpost.2

theorem preserves_connectFirst (issued : Int) :
    Action.Preserves (WellKept · issued) connectFirst := by
  apply Action.Preserves.of_satisfies
  intro s h
  apply (satisfies_connectFirst h.idle).imp
  · intro _ t ht
    exact h.passed ht
  · intro why t hnever
    exact hnever.elim

end WellKept

end MemoryStore

end Guestbook
