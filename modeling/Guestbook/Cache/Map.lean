import Guestbook.Cache
import Guestbook.SortedMap

/-!
# The map cache

A cache without bounds: it takes every entry, ignores costs and drops nothing by itself.
-/

namespace Guestbook

/-- A cache that keeps every entry until it is cleared. -/
structure MapCache where
  entries : SortedMap String Bytes := .empty
  hits : Nat := 0
  misses : Nat := 0
  clears : Nat := 0

namespace MapCache

/-- The bytes under a key; the look-up is counted. -/
def get (key : String) : Action MapCache (Option Bytes) := fun c =>
  match c.entries.find? key with
  | some bytes => ⟨.ok (some bytes), { c with hits := c.hits + 1 }, []⟩
  | none => ⟨.ok none, { c with misses := c.misses + 1 }, []⟩

theorem answer_get (key : String) (c : MapCache) :
    (get key c).answer = .ok (c.entries.find? key) := by
  unfold get
  split
  · next h => rw [h]
  · next h => rw [h]

/-- Puts bytes under a key without counting. -/
def insertRaw (key : String) (bytes : Bytes) (c : MapCache) : MapCache :=
  { c with entries := c.entries.insert key bytes }

/-- Bytes that were put under a key are found there. -/
theorem answer_get_insertRaw (key : String) (bytes : Bytes) (c : MapCache) :
    (get key (c.insertRaw key bytes)).answer = .ok (some bytes) := by
  have hfind : (c.insertRaw key bytes).entries.find? key = some bytes :=
    (SortedMap.find?_insert c.entries key key bytes).trans (if_pos rfl)
  rw [answer_get, hfind]

/-- Takes every entry. -/
def set (key : String) (bytes : Bytes) (_cost : Cost) : Action MapCache Bool := fun c =>
  ⟨.ok true, c.insertRaw key bytes, []⟩

/-- Drops every entry. -/
def clear : Action MapCache Unit := fun c =>
  ⟨.ok (), { c with entries := .empty, clears := c.clears + 1 }, []⟩

/-- Use and contents; an entry costs nothing. -/
def stats (c : MapCache) : CacheStats :=
  { hits := c.hits, misses := c.misses, entryCount := c.entries.size, clears := c.clears }

instance : Cache MapCache where
  get := get
  set := set
  clear := clear
  stats := stats

end MapCache

end Guestbook
