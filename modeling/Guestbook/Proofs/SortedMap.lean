import Guestbook.SortedMap

/-!
# Entries and changes of a map

What is found under a key is an entry of the map. A key above all others is inserted at the end, so
the entries of a map make the map again, and a key that is not there is erased without effect.

## Main statements
- `mem_of_findEntry`, `find?_of_mem`: what is found is an entry, and every entry is found
- `ext_find?`: maps that answer alike are the same
- `insertEntry_of_lt`: an insertion above all keys
- `eraseEntry_of_not_mem`: an erasure of a key that is not there
- `ofList_entries`: the map of the entries of a map
- `contains_iff`, `contains_insert`: the keys of a map
-/

namespace Guestbook.SortedMap

variable {κ β : Type}

section Entries

variable [DecidableEq κ]

theorem eraseEntry_of_not_mem {key : κ} {entries : List (κ × β)}
    (h : ∀ entry ∈ entries, entry.1 ≠ key) : eraseEntry key entries = entries := by
  apply List.filter_eq_self.mpr
  intro entry hentry
  simp [h entry hentry]

/-- What is found under a key stands in the map with it. -/
theorem mem_of_findEntry {key : κ} {value : β} {entries : List (κ × β)}
    (h : findEntry key entries = some value) : (key, value) ∈ entries := by
  induction entries with
  | nil => simp [findEntry] at h
  | cons head rest ih =>
    obtain ⟨k, v⟩ := head
    rw [findEntry] at h
    split at h
    · next hk =>
      obtain rfl := Option.some.inj h
      exact hk ▸ List.mem_cons_self
    · exact List.mem_cons_of_mem _ (ih h)

theorem isSome_findEntry_iff {key : κ} {entries : List (κ × β)} :
    (findEntry key entries).isSome ↔ ∃ entry ∈ entries, entry.1 = key := by
  induction entries with
  | nil => simp [findEntry]
  | cons head rest ih =>
    obtain ⟨k, v⟩ := head
    rw [findEntry]
    by_cases hk : k = key
    · simp [hk]
    · simp [hk, ih]

/-- A key above all others comes to the end. -/
theorem insertEntry_of_lt [LT κ] [DecidableLT κ] [LE κ] [Std.IsLinearOrder κ]
    [Std.LawfulOrderLT κ] {key : κ} (value : β) {entries : List (κ × β)}
    (h : ∀ entry ∈ entries, entry.1 < key) :
    insertEntry key value entries = entries ++ [(key, value)] := by
  induction entries with
  | nil => rfl
  | cons head rest ih =>
    obtain ⟨k, v⟩ := head
    have hlt : k < key := h (k, v) List.mem_cons_self
    have hnot : ¬ key < k := fun hgt => Std.lt_irrefl (Std.lt_trans hlt hgt)
    have hne : k ≠ key := fun heq => Std.lt_irrefl (heq ▸ hlt)
    rw [insertEntry, if_neg hnot, if_neg hne,
      ih fun entry he => h entry (List.mem_cons_of_mem _ he)]
    rfl

end Entries

section Maps

variable [LT κ] [DecidableEq κ] {m : SortedMap κ β} {key : κ}

theorem contains_iff : m.contains key ↔ ∃ entry ∈ m.entries, entry.1 = key := isSome_findEntry_iff

/-- Every entry is found under its key. -/
theorem find?_of_mem [LE κ] [Std.IsLinearOrder κ] [Std.LawfulOrderLT κ] {value : β}
    (h : (key, value) ∈ m.entries) : m.find? key = some value := by
  obtain ⟨entries, hsorted⟩ := m
  show findEntry key entries = some value
  change (key, value) ∈ entries at h
  induction entries with
  | nil => exact absurd h List.not_mem_nil
  | cons head entries ih =>
    obtain ⟨hhead, hrest⟩ := List.pairwise_cons.mp hsorted
    obtain ⟨k, v⟩ := head
    rw [findEntry]
    rcases List.mem_cons.mp h with heq | h
    · obtain ⟨rfl, rfl⟩ := Prod.mk.inj heq
      exact if_pos rfl
    · -- The head has a smaller key.
      have hlt : k < key := hhead _ h
      rw [if_neg fun hk => Std.lt_irrefl (hk ▸ hlt)]
      exact ih hrest h

omit [DecidableEq κ] in
theorem nodup_entries [LE κ] [Std.IsLinearOrder κ] [Std.LawfulOrderLT κ] (m : SortedMap κ β) :
    m.entries.Nodup := by
  apply m.sorted.imp
  intro entry other hlt heq
  exact Std.lt_irrefl (heq ▸ hlt)

/-- Maps in which the same is found under every key are the same. -/
theorem ext_find? [LE κ] [Std.IsLinearOrder κ] [Std.LawfulOrderLT κ] {m n : SortedMap κ β}
    (h : ∀ key, m.find? key = n.find? key) : m = n := by
  have hmem : ∀ entry, entry ∈ m.entries ↔ entry ∈ n.entries := fun entry =>
    ⟨fun hm => mem_of_findEntry ((h entry.1).symm.trans (find?_of_mem hm)),
      fun hn => mem_of_findEntry ((h entry.1).trans (find?_of_mem hn))⟩
  have hperm := (List.perm_ext_iff_of_nodup m.nodup_entries n.nodup_entries).mpr hmem
  -- Two orders of the same entries agree, since no key is below and above another.
  refine SortedMap.ext (hperm.eq_of_pairwise ?_ m.sorted n.sorted)
  intro a b _ _ hab hba
  exact absurd (Std.lt_trans hab hba) Std.lt_irrefl

/-- An insertion adds its own key and no other. -/
theorem contains_insert [DecidableLT κ] [LE κ] [Std.IsLinearOrder κ] [Std.LawfulOrderLT κ]
    (m : SortedMap κ β) (key other : κ) (value : β) :
    (m.insert key value).contains other = true ↔ other = key ∨ m.contains other = true := by
  unfold contains
  rw [find?_insert]
  split
  · next h => simp [h]
  · next h => simp [Ne.symm h]

/-- Entries in key order that are inserted above the keys of a map come behind its entries. -/
theorem entries_foldl_insert [DecidableLT κ] [LE κ] [Std.IsLinearOrder κ] [Std.LawfulOrderLT κ]
    {entries : List (κ × β)} {m : SortedMap κ β}
    (h : (m.entries ++ entries).Pairwise fun a b => a.1 < b.1) :
    (entries.foldl (fun n entry => n.insert entry.1 entry.2) m).entries = m.entries ++ entries := by
  induction entries generalizing m with
  | nil => exact (List.append_nil _).symm
  | cons head rest ih =>
    have habove : ∀ entry ∈ m.entries, entry.1 < head.1 := fun entry hentry =>
      (List.pairwise_append.mp h).2.2 entry hentry head List.mem_cons_self
    have hinsert : (m.insert head.1 head.2).entries = m.entries ++ [head] :=
      insertEntry_of_lt head.2 habove
    rw [List.append_cons, ← hinsert] at h
    rw [List.foldl_cons, ih h, hinsert, ← List.append_cons]

/-- The entries of a map make the map. -/
theorem ofList_entries [DecidableLT κ] [LE κ] [Std.IsLinearOrder κ] [Std.LawfulOrderLT κ]
    (m : SortedMap κ β) : ofList m.entries = m :=
  SortedMap.ext (entries_foldl_insert (m := empty) m.sorted)

theorem erase_of_not_contains (h : ¬ m.contains key) : m.erase key = m := by
  refine SortedMap.ext (eraseEntry_of_not_mem ?_)
  intro entry hentry hkey
  exact h (contains_iff.mpr ⟨entry, hentry, hkey⟩)

end Maps

end Guestbook.SortedMap
