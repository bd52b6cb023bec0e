/-!
# Key-ordered maps

A finite map kept as the list of its entries in strictly ascending key order, so that two maps with
the same entries are equal and iteration is by key.

## Main definitions
- `SortedMap`: the entries with a proof of their order
- `SortedMap.find?`, `SortedMap.insert`, `SortedMap.erase`

## Main statements
- `find?_insert`: looking up after an insertion
- `find?_erase`: looking up after an erasure
-/

namespace Guestbook

/-- A finite map with its entries in strictly ascending key order. -/
structure SortedMap (κ β : Type) [LT κ] where
  entries : List (κ × β)
  sorted : entries.Pairwise fun a b => a.1 < b.1

namespace SortedMap

/-! ## Entry lists -/

section Entries

variable {κ β : Type} [DecidableEq κ]

/-- The value under `key` in a list of entries. -/
def findEntry (key : κ) : List (κ × β) → Option β
  | [] => none
  | (k, v) :: rest => if k = key then some v else findEntry key rest

/-- Leaves out the entries under `key`. -/
def eraseEntry (key : κ) (entries : List (κ × β)) : List (κ × β) :=
  entries.filter fun entry => !decide (entry.1 = key)

theorem findEntry_eraseEntry_self (key : κ) (entries : List (κ × β)) :
    findEntry key (eraseEntry key entries) = none := by
  induction entries with
  | nil => rfl
  | cons head rest ih =>
    obtain ⟨k, v⟩ := head
    by_cases hk : k = key
    · simpa [eraseEntry, hk] using ih
    · simpa [eraseEntry, hk, findEntry] using ih

theorem findEntry_eraseEntry_of_ne {key other : κ} (h : key ≠ other) (entries : List (κ × β)) :
    findEntry other (eraseEntry key entries) = findEntry other entries := by
  induction entries with
  | nil => rfl
  | cons head rest ih =>
    obtain ⟨k, v⟩ := head
    by_cases hk : k = key
    · have : k ≠ other := hk ▸ h
      simpa [eraseEntry, hk, findEntry, this, h] using ih
    · have hstep : eraseEntry key ((k, v) :: rest) = (k, v) :: eraseEntry key rest := by
        simp [eraseEntry, hk]
      simp only [hstep, findEntry, ih]

variable [LT κ] [DecidableLT κ]

/-- Puts an entry at its place, instead of one with the same key. -/
def insertEntry (key : κ) (value : β) : List (κ × β) → List (κ × β)
  | [] => [(key, value)]
  | (k, v) :: rest =>
    if key < k then (key, value) :: (k, v) :: rest
    else if k = key then (key, value) :: rest
    else (k, v) :: insertEntry key value rest

/-- An insertion adds nothing but its own entry. -/
theorem mem_insertEntry {key : κ} {value : β} {entry : κ × β} {entries : List (κ × β)}
    (h : entry ∈ insertEntry key value entries) : entry = (key, value) ∨ entry ∈ entries := by
  induction entries with
  | nil => simpa [insertEntry] using h
  | cons head rest ih =>
    obtain ⟨k, v⟩ := head
    rw [insertEntry] at h
    split at h
    · simpa using h
    · split at h
      · rcases List.mem_cons.mp h with h | h
        · exact .inl h
        · exact .inr (List.mem_cons_of_mem _ h)
      · rcases List.mem_cons.mp h with h | h
        · exact .inr (h ▸ List.mem_cons_self)
        · exact (ih h).imp id (List.mem_cons_of_mem _)

theorem findEntry_insertEntry_self (key : κ) (value : β) (entries : List (κ × β)) :
    findEntry key (insertEntry key value entries) = some value := by
  induction entries with
  | nil => simp [insertEntry, findEntry]
  | cons head rest ih =>
    obtain ⟨k, v⟩ := head
    rw [insertEntry]
    split
    · simp [findEntry]
    · split
      · simp [findEntry]
      · next hne => simp [findEntry, hne, ih]

theorem findEntry_insertEntry_of_ne {key other : κ} (h : key ≠ other) (value : β)
    (entries : List (κ × β)) :
    findEntry other (insertEntry key value entries) = findEntry other entries := by
  induction entries with
  | nil => simp [insertEntry, findEntry, h]
  | cons head rest ih =>
    obtain ⟨k, v⟩ := head
    rw [insertEntry]
    split
    · simp [findEntry, h]
    · split
      · next heq => subst heq; simp [findEntry, h]
      · by_cases hk : k = other <;> simp [findEntry, hk, ih]

theorem sorted_insertEntry [LE κ] [Std.IsLinearOrder κ] [Std.LawfulOrderLT κ] (key : κ) (value : β)
    {entries : List (κ × β)} (h : entries.Pairwise fun a b => a.1 < b.1) :
    (insertEntry key value entries).Pairwise fun a b => a.1 < b.1 := by
  induction entries with
  | nil => simp [insertEntry]
  | cons head rest ih =>
    obtain ⟨k, v⟩ := head
    obtain ⟨hhead, hrest⟩ := List.pairwise_cons.mp h
    rw [insertEntry]
    split
    · -- The new key comes before the head, and so before everything else.
      next hlt =>
      refine List.pairwise_cons.mpr ⟨fun entry hentry => ?_, h⟩
      rcases List.mem_cons.mp hentry with rfl | hentry
      · exact hlt
      · exact Std.lt_trans hlt (hhead entry hentry)
    · next hnlt =>
      split
      · next heq => subst heq; exact List.pairwise_cons.mpr ⟨hhead, hrest⟩
      · -- The head stays, and what is inserted behind it is the new key or was there before.
        next hne =>
        refine List.pairwise_cons.mpr ⟨fun entry hentry => ?_, ih hrest⟩
        rcases mem_insertEntry hentry with rfl | hentry
        · exact Std.lt_of_le_of_ne (Std.not_lt.mp hnlt) hne
        · exact hhead entry hentry

end Entries

/-! ## Maps -/

section Maps

variable {κ β : Type} [LT κ]

/-- The map without entries. -/
def empty : SortedMap κ β := ⟨[], .nil⟩

instance : Inhabited (SortedMap κ β) := ⟨empty⟩

/-- The values in key order. -/
def values (m : SortedMap κ β) : List β := m.entries.map (·.2)

/-- The number of entries. -/
def size (m : SortedMap κ β) : Nat := m.entries.length

@[ext] theorem ext {m n : SortedMap κ β} (h : m.entries = n.entries) : m = n := by
  cases m; cases n; congr

instance [DecidableEq κ] [DecidableEq β] : DecidableEq (SortedMap κ β) := fun m n =>
  decidable_of_iff (m.entries = n.entries) ⟨ext, fun h => h ▸ rfl⟩

variable [DecidableEq κ]

/-- The value under `key`. -/
def find? (m : SortedMap κ β) (key : κ) : Option β := findEntry key m.entries

/-- Whether there is a value under `key`. -/
def contains (m : SortedMap κ β) (key : κ) : Bool := (m.find? key).isSome

/-- The map without `key`. -/
def erase (m : SortedMap κ β) (key : κ) : SortedMap κ β :=
  ⟨eraseEntry key m.entries, m.sorted.filter _⟩

@[simp] theorem find?_empty (key : κ) : (empty : SortedMap κ β).find? key = none := rfl

/-- An erasure removes its own key and no other. -/
theorem find?_erase (m : SortedMap κ β) (key other : κ) :
    (m.erase key).find? other = if key = other then none else m.find? other := by
  split
  · next h => exact h ▸ findEntry_eraseEntry_self key m.entries
  · next h => exact findEntry_eraseEntry_of_ne h m.entries

variable [DecidableLT κ] [LE κ] [Std.IsLinearOrder κ] [Std.LawfulOrderLT κ]

/-- The map with `value` under `key`. -/
def insert (m : SortedMap κ β) (key : κ) (value : β) : SortedMap κ β :=
  ⟨insertEntry key value m.entries, sorted_insertEntry key value m.sorted⟩

/-- The map of a list of entries; of two with the same key the later one counts. -/
def ofList (entries : List (κ × β)) : SortedMap κ β :=
  entries.foldl (fun m entry => m.insert entry.1 entry.2) empty

/-- An insertion changes its own key and no other. -/
theorem find?_insert (m : SortedMap κ β) (key other : κ) (value : β) :
    (m.insert key value).find? other = if key = other then some value else m.find? other := by
  split
  · next h => exact h ▸ findEntry_insertEntry_self key value m.entries
  · next h => exact findEntry_insertEntry_of_ne h value m.entries

end Maps

end SortedMap

end Guestbook
