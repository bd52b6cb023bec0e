import Guestbook.Proofs.Store.Run
import Guestbook.Proofs.Word

/-!
# Ranges and scans

A range query picks out of what a scan answers the records whose id bin lies in the range. It goes
by the bin and not by the key: both may differ in records that were planted, and a bin may be
missing or of another type. Ranges that meet without a gap share the records of the range that they
make up.

## Main definitions
- `Record.IdWithin`: the id bin of a record lies in a range
- `MemoryStore.RangesAgree`: range queries agree with scans
- `StoreHistory.planting`: the run that plants given records

## Main statements
- `perm_filter_idWithin`: a range and its two parts
- `rangesAgree_of_working`: a store that can be reached and does not fail
- `play_planting`: every content comes about
- `rangesAgree_of_run`: every run
-/

namespace Guestbook

/-! ## Records in a range -/

namespace Record

variable {low mid high n : Int64} {r : Record}

/-- The id bin of a record is an integer from `low` to `high`. -/
def IdWithin (low high : Int64) (r : Record) : Prop :=
  ∃ n, r.find? Bin.id = some (.int n) ∧ low ≤ n ∧ n ≤ high

/-- What a range query looks at in a record. -/
theorem inRange_iff : MemoryStore.inRange Bin.id low high r = true ↔ r.IdWithin low high := by
  unfold MemoryStore.inRange IdWithin
  split
  · next n hfind => simp [hfind]
  · next hfind =>
    refine iff_of_false Bool.false_ne_true ?_
    intro hwithin
    obtain ⟨n, hn, -⟩ := hwithin
    exact hfind n hn

instance : DecidablePred (IdWithin low high) := fun _ => decidable_of_iff _ inRange_iff

/-- An id bin with an integer is the one that counts. -/
theorem idWithin_iff_of_find (h : r.find? Bin.id = some (.int n)) :
    r.IdWithin low high ↔ low ≤ n ∧ n ≤ high := by
  constructor
  · intro hwithin
    obtain ⟨k, hk, hrange⟩ := hwithin
    obtain rfl := BinValue.int.inj (Option.some.inj (h.symm.trans hk))
    exact hrange
  · exact fun hrange => ⟨n, h, hrange⟩

/-- A range holds what its lower part holds. -/
theorem IdWithin.of_lower (hmid : mid ≤ high) (h : r.IdWithin low mid) : r.IdWithin low high := by
  obtain ⟨n, hfind, hlow, hle⟩ := h
  exact ⟨n, hfind, hlow, Int64.le_trans hle hmid⟩

/-- The upper part of a range holds what the lower part leaves of the range. -/
theorem idWithin_upper_iff (hlow : low ≤ mid) (hhigh : mid < high) :
    r.IdWithin (mid + 1) high ↔ ¬ r.IdWithin low mid ∧ r.IdWithin low high := by
  have hnext : (mid + 1).toInt = mid.toInt + 1 := Word.toInt_add_one_of_lt hhigh
  rw [Int64.le_iff_toInt_le] at hlow
  constructor
  · intro hupper
    obtain ⟨n, hfind, hmid, hle⟩ := hupper
    rw [idWithin_iff_of_find hfind, idWithin_iff_of_find hfind]
    simp only [Int64.le_iff_toInt_le] at hmid hle ⊢
    omega
  · intro hwhole
    obtain ⟨hlower, n, hfind, hfrom, hle⟩ := hwhole
    rw [idWithin_iff_of_find hfind] at hlower ⊢
    simp only [Int64.le_iff_toInt_le] at hlower hfrom hle ⊢
    omega

/-- The records in the two parts of a range are those in the range. -/
theorem perm_filter_idWithin (hlow : low ≤ mid) (hhigh : mid < high) (records : List Record) :
    (records.filter (IdWithin low mid ·) ++ records.filter (IdWithin (mid + 1) high ·)).Perm
      (records.filter (IdWithin low high ·)) := by
  have hlower : records.filter (IdWithin low mid ·)
      = (records.filter (IdWithin low high ·)).filter (IdWithin low mid ·) := by
    rw [List.filter_filter]
    apply List.filter_congr
    intro r _
    rw [← Bool.decide_and]
    exact decide_eq_decide.mpr (and_iff_left_of_imp (.of_lower (Int64.le_of_lt hhigh))).symm
  have hupper : records.filter (IdWithin (mid + 1) high ·)
      = (records.filter (IdWithin low high ·)).filter fun r => !decide (r.IdWithin low mid) := by
    rw [List.filter_filter]
    apply List.filter_congr
    intro r _
    rw [← decide_not, ← Bool.decide_and]
    exact decide_eq_decide.mpr (idWithin_upper_iff hlow hhigh)
  -- So one part is what the lower range keeps of the whole, and the other is the rest.
  rw [hlower, hupper]
  exact List.filter_append_perm _ _

end Record

/-! ## What a store answers -/

namespace MemoryStore

variable {s : MemoryStore}

/-- What a store answers to range queries agrees with what it answers to a scan. -/
structure RangesAgree (s : MemoryStore) (records : List Record) : Prop where
  scan : (scanAll s).answer = .ok records
  count : (countAll s).answer = .ok records.length
  /-- A range query keeps the records with an id in the range, in the order of the scan. -/
  query : ∀ low high,
    (queryByRange Bin.id low high s).answer = .ok (records.filter (Record.IdWithin low high ·))
  /-- Two ranges that meet without a gap have the records of the range that they make up. -/
  split : ∀ low mid high, low ≤ mid → mid < high → ∃ lower upper whole,
    (queryByRange Bin.id low mid s).answer = .ok lower ∧
      (queryByRange Bin.id (mid + 1) high s).answer = .ok upper ∧
      (queryByRange Bin.id low high s).answer = .ok whole ∧ (lower ++ upper).Perm whole
  /-- There is no other index. -/
  otherIndex : ∀ index low high, index ≠ Bin.id → (queryByRange index low high s).answer
    = .error (.error (.rangeQueryFailed index low high ("no secondary index on " ++ index)))
  /-- None of this changes what there is to query. -/
  reads : Store.ReadsKeep s.SameData

section Answers

variable (hidle : s.gate.connecting = false) (hreachable : s.reachable = true)
  (hworks : s.failing = false)
include hreachable hworks

/-- A store that works refuses nothing. -/
theorem not_refused (cause : String → BoardError) (why : Stop) : ¬ Refused s cause why := by
  intro hrefused
  rcases hrefused with hunreached | hfailing
  · exact nomatch hreachable.symm.trans hunreached.1
  · exact nomatch hworks.symm.trans hfailing.1

/-- What only a store that does not work refuses is answered. -/
theorem answers_of_working {α : Type} {o : Outcome MemoryStore α} {Q : α → MemoryStore → Prop}
    {cause : String → BoardError} {P : MemoryStore → Prop}
    (h : o.Satisfies Q fun why t => Refused s cause why ∧ P t) :
    ∃ x, o.answer = .ok x ∧ Q x o.state :=
  h.answers fun why _ hstop => not_refused hreachable hworks cause why hstop.1

include hidle

theorem answer_scanAll : (scanAll s).answer = .ok s.records.values := by
  obtain ⟨records, hanswer, ⟨-, rfl⟩, -⟩ :=
    answers_of_working hreachable hworks (satisfies_scanAll hidle)
  exact hanswer

theorem answer_countAll : (countAll s).answer = .ok s.records.values.length := by
  obtain ⟨n, hanswer, ⟨-, rfl⟩, -⟩ :=
    answers_of_working hreachable hworks (satisfies_countAll hidle)
  rw [hanswer, SortedMap.values, List.length_map]
  rfl

theorem answer_queryByRange (low high : Int64) : (queryByRange Bin.id low high s).answer
    = .ok (s.records.values.filter (Record.IdWithin low high ·)) := by
  obtain ⟨records, hanswer, ⟨-, rfl⟩, -⟩ :=
    answers_of_working hreachable hworks (satisfies_queryByRange hidle low high)
  -- The query tests the bin as the range says.
  rw [hanswer]
  congr 2
  funext r
  exact Bool.eq_iff_iff.mpr (Record.inRange_iff.trans decide_eq_true_iff.symm)

theorem answer_queryByRange_of_ne {index : String} (hindex : index ≠ Bin.id) (low high : Int64) :
    (queryByRange index low high s).answer
      = .error (.error (.rangeQueryFailed index low high ("no secondary index on " ++ index))) := by
  obtain ⟨why, hanswer, hrefused | rfl, -⟩ :=
    (satisfies_queryByRange_of_ne hidle hindex low high).stops fun _ _ h => h
  · exact absurd hrefused (not_refused hreachable hworks _ why)
  · exact hanswer

/-- Range queries agree with scans as long as the store works. -/
theorem rangesAgree_of_working : s.RangesAgree s.records.values where
  scan := answer_scanAll hidle hreachable hworks
  count := answer_countAll hidle hreachable hworks
  query := answer_queryByRange hidle hreachable hworks
  split low mid high hlow hhigh :=
    ⟨_, _, _, answer_queryByRange hidle hreachable hworks low mid,
      answer_queryByRange hidle hreachable hworks (mid + 1) high,
      answer_queryByRange hidle hreachable hworks low high,
      Record.perm_filter_idWithin hlow hhigh _⟩
  otherIndex _ low high hindex := answer_queryByRange_of_ne hidle hreachable hworks hindex low high
  reads := readsKeep_sameData

end Answers

end MemoryStore

/-! ## Runs -/

namespace StoreHistory

/-- The run that plants given records. -/
def planting (records : SortedMap Int64 Record) : List StoreStep :=
  records.entries.map fun entry => .request (.insertRaw entry.1 entry.2)

/-- Planted records are inserted one by one. -/
theorem store_play_insertRaw (entries : List (Int64 × Record)) (h : StoreHistory) :
    (h.play (entries.map fun entry => .request (.insertRaw entry.1 entry.2))).store
      = { h.store with
          records := entries.foldl (fun m entry => m.insert entry.1 entry.2) h.store.records } := by
  induction entries generalizing h with
  | nil => rfl
  | cons entry entries ih => exact ih _

/-- Every content of a store comes about. -/
theorem play_planting (records : SortedMap Int64 Record) :
    ((opened true).play (planting records)).store = { records } := by
  refine (store_play_insertRaw records.entries (opened true)).trans ?_
  exact congrArg (fun records => ({ records } : MemoryStore)) records.ofList_entries

/-- Range queries agree with scans whatever the store holds: every content can be planted, and
whatever happened to a store, while it can be reached and does not fail, it answers alike. -/
theorem rangesAgree_of_run :
    (∀ records : SortedMap Int64 Record, ∃ steps, ((opened true).play steps).store = { records }) ∧
      ∀ reachable steps, ((opened reachable).play steps).store.reachable = true →
        ((opened reachable).play steps).store.failing = false →
        ((opened reachable).play steps).store.RangesAgree
          ((opened reachable).play steps).store.records.values := by
  refine ⟨fun records => ⟨planting records, play_planting records⟩, ?_⟩
  intro reachable steps hreachable hworks
  exact MemoryStore.rangesAgree_of_working (idle_play (h := opened reachable) rfl steps)
    hreachable hworks

/-- Records whose id bins repeat a value, differ from the key, hold a text or are left out. -/
def strayRecords : SortedMap Int64 Record :=
  .ofList [(1, .ofList [(Bin.id, .int 7)]), (2, .ofList [(Bin.author, .str "A")]),
    (3, .ofList [(Bin.id, .int 7), (Bin.author, .nil)]), (4, .ofList [(Bin.id, .str "5")]),
    (5, .ofList [(Bin.id, .int Int64.maxValue)])]

/-- Planted stray records are found by the id that their bin holds, up to the greatest word. -/
theorem rangesAgree_of_run_stray :
    ((opened true).play (planting strayRecords)).store.RangesAgree strayRecords.values ∧
      strayRecords.values.length = 5 ∧
      strayRecords.values.filter (Record.IdWithin 2 7 ·) = [.ofList [(Bin.id, .int 7)],
        .ofList [(Bin.id, .int 7), (Bin.author, .nil)]] ∧
      strayRecords.values.filter (Record.IdWithin 8 Int64.maxValue ·)
        = [.ofList [(Bin.id, .int Int64.maxValue)]] := by
  have hstore := play_planting strayRecords
  have hagree := rangesAgree_of_run.2 true (planting strayRecords) (by rw [hstore]) (by rw [hstore])
  rw [hstore] at hagree
  rw [hstore]
  exact ⟨hagree, by decide +kernel, by decide +kernel, by decide +kernel⟩

end StoreHistory

end Guestbook
