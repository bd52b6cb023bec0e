import Guestbook.Cache.Backend
import Guestbook.Cache.Recording
import Guestbook.Proofs.Cache.Lru
import Guestbook.Proofs.SortedMap

/-!
# Caches that serve what they were offered

A lawful cache accounts for the entries it holds: it serves an entry only if it holds it, it comes
to hold an entry only if it is offered it, and it holds nothing after a clear. It may drop or
decline whatever it likes. Every kind of cache of the board is lawful, alone or recorded.

## Main definitions
- `LawfulCache`: the laws, with the entries held
- `LawfulCache.IsEmpty`: a cache that holds nothing
- `LawfulCache.Tuning`: a change from outside that adds nothing
-/

namespace Guestbook

open Outcome (Satisfies)

/-- A cache that serves only what it was offered since it was last cleared. -/
class LawfulCache (γ : Type) [Cache γ] where
  /-- The entries held. -/
  entries : γ → List (String × Bytes)
  /-- What every operation keeps of the account of costs. -/
  Balanced : γ → Prop
  /-- A look-up cannot fail, serves an entry held and adds none. -/
  satisfies_get {c : γ} (h : Balanced c) (key : String) :
    (Cache.get key c).Satisfies
      (fun found c' => (Balanced c' ∧ entries c' ⊆ entries c ∧
          (Cache.stats c').cost = (Cache.stats c).cost) ∧
        ∀ bytes ∈ found, (key, bytes) ∈ entries c)
      fun _ _ => False
  /-- An offer adds no entry but its own. It fails only when costs are beyond a word. -/
  satisfies_set {c : γ} (h : Balanced c) (key : String) (bytes : Bytes) (cost : Cost) :
    (Cache.set key bytes cost c).Satisfies
      (fun _ c' => Balanced c' ∧ entries c' ⊆ (key, bytes) :: entries c)
      fun why c' => (Balanced c' ∧ entries c' ⊆ (key, bytes) :: entries c) ∧
        why = .fault .addOverflow ∧ UInt64.size ≤ (Cache.stats c).cost + cost.toNat
  /-- A clear cannot fail and leaves no entry. -/
  satisfies_clear (c : γ) :
    (Cache.clear c).Satisfies (fun _ c' => Balanced c' ∧ entries c' = []) fun _ _ => False

namespace LawfulCache

/-- A cache that holds nothing. -/
structure IsEmpty {γ : Type} [Cache γ] [LawfulCache γ] (c : γ) : Prop where
  balanced : Balanced c
  entries : entries c = []

/-- A change of a cache from outside that adds no entry. -/
structure Tuning (γ : Type) [Cache γ] [LawfulCache γ] where
  apply : γ → γ
  balanced : ∀ c, Balanced c → Balanced (apply c)
  entries : ∀ c, LawfulCache.entries (apply c) ⊆ LawfulCache.entries c

end LawfulCache

/-! ## The map cache -/

instance : LawfulCache MapCache where
  entries c := c.entries.entries
  Balanced _ := True
  satisfies_get {c} _ key := by
    show (MapCache.get key c).Satisfies _ _
    unfold MapCache.get
    cases hfind : c.entries.find? key with
    | none => exact ⟨⟨trivial, List.Subset.refl _, rfl⟩, fun _ h => by simp at h⟩
    | some bytes =>
      refine ⟨⟨trivial, List.Subset.refl _, rfl⟩, ?_⟩
      intro found hfound
      obtain rfl := Option.mem_some_iff.mp hfound
      exact SortedMap.mem_of_findEntry hfind
  satisfies_set {c} _ key bytes _ :=
    ⟨trivial, fun _ hentry => List.mem_cons.mpr (SortedMap.mem_insertEntry hentry)⟩
  satisfies_clear _ := ⟨trivial, rfl⟩

theorem MapCache.isEmpty_new : LawfulCache.IsEmpty ({} : MapCache) := ⟨trivial, rfl⟩

/-! ## The cost-bounded cache -/

namespace LruCache

/-- An entry without its cost. -/
private def Entry.pair (e : Entry) : String × Bytes := (e.key, e.bytes)

instance : LawfulCache LruCache where
  entries c := c.entries.map Entry.pair
  Balanced := Balanced
  satisfies_get {c} h key := by
    have hsubset := List.map_subset Entry.pair (entries_get_subset c key)
    obtain ⟨hbalance, hcost⟩ := balanced_get h key
    have hkept : Balanced (get key c).state ∧
        (get key c).state.entries.map Entry.pair ⊆ c.entries.map Entry.pair ∧
        (get key c).state.cost.toNat = c.cost.toNat := ⟨hbalance, hsubset, by rw [hcost]⟩
    show (get key c).Satisfies _ _
    unfold get at hkept ⊢
    cases hfind : c.find? key with
    | none =>
      -- A miss serves nothing.
      rw [hfind] at hkept
      exact ⟨hkept, fun _ h => by simp at h⟩
    | some e =>
      rw [hfind] at hkept
      refine ⟨hkept, ?_⟩
      intro bytes hbytes
      obtain rfl := Option.mem_some_iff.mp hbytes
      obtain ⟨hmem, hkey⟩ := mem_of_find? hfind
      exact hkey ▸ List.mem_map_of_mem hmem
  satisfies_set {c} h key bytes cost :=
    (satisfies_set h key bytes cost).imp
      (fun _ _ ⟨hbalance, hsubset⟩ => ⟨hbalance, List.map_subset Entry.pair hsubset⟩)
      fun _ _ ⟨⟨hbalance, hsubset⟩, hwhy⟩ => ⟨⟨hbalance, List.map_subset Entry.pair hsubset⟩, hwhy⟩
  satisfies_clear _ := ⟨rfl, rfl⟩

theorem isEmpty_new (maxCost : Cost) : LawfulCache.IsEmpty ({ maxCost } : LruCache) := ⟨rfl, rfl⟩

end LruCache

/-! ## Either kind of cache -/

namespace CacheBackend

instance : LawfulCache CacheBackend where
  entries
    | .map c => LawfulCache.entries c
    | .lru c => LawfulCache.entries c
  Balanced
    | .map c => LawfulCache.Balanced c
    | .lru c => LawfulCache.Balanced c
  satisfies_get {c} h key := by
    cases c with
    | map c => exact LawfulCache.satisfies_get (c := c) h key
    | lru c => exact LawfulCache.satisfies_get (c := c) h key
  satisfies_set {c} h key bytes cost := by
    cases c with
    | map c => exact LawfulCache.satisfies_set (c := c) h key bytes cost
    | lru c => exact LawfulCache.satisfies_set (c := c) h key bytes cost
  satisfies_clear c := by
    cases c with
    | map c => exact LawfulCache.satisfies_clear c
    | lru c => exact LawfulCache.satisfies_clear c

end CacheBackend

/-! ## Recorded caches -/

namespace RecordingCache

variable {γ : Type}

@[simp] theorem satisfies_count (f : CacheCalls → CacheCalls) (c : RecordingCache γ)
    {Q : Unit → RecordingCache γ → Prop} {E : Stop → RecordingCache γ → Prop} :
    (count f c).Satisfies Q E ↔ Q () { c with calls := f c.calls } := Iff.rfl

@[simp] theorem satisfies_inside {α : Type} (a : Action γ α) (c : RecordingCache γ)
    {Q : α → RecordingCache γ → Prop} {E : Stop → RecordingCache γ → Prop} :
    (inside a c).Satisfies Q E ↔
      (a c.inner).Satisfies (fun x inner => Q x { c with inner })
        fun why inner => E why { c with inner } := Iff.rfl

variable [Cache γ] [LawfulCache γ]

instance : LawfulCache (RecordingCache γ) where
  entries c := LawfulCache.entries c.inner
  Balanced c := LawfulCache.Balanced c.inner
  satisfies_get {c} h key := by
    show (get key c).Satisfies _ _
    unfold get
    simp only [Action.satisfies_bind, satisfies_count, satisfies_inside]
    refine (LawfulCache.satisfies_get h key).imp ?_ fun _ _ => id
    intro found inner hfound
    split <;> exact hfound
  satisfies_set {c} h key bytes cost := by
    show (set key bytes cost c).Satisfies _ _
    unfold set
    simp only [Action.satisfies_bind, satisfies_count, Action.satisfies_state]
    split
    · -- The recording cache declines the entry before the cache inside sees it.
      exact ⟨h, List.subset_cons_self _ _⟩
    · simp only [Action.satisfies_bind, satisfies_inside]
      refine (LawfulCache.satisfies_set h key bytes cost).imp ?_ fun _ _ => id
      intro accepted inner haccepted
      cases accepted <;> exact haccepted
  satisfies_clear c := by
    show (clear c).Satisfies _ _
    unfold clear
    simp only [Action.satisfies_bind, satisfies_count, satisfies_inside]
    exact LawfulCache.satisfies_clear c.inner

theorem isEmpty_of_inner {c : RecordingCache γ} (h : LawfulCache.IsEmpty c.inner) :
    LawfulCache.IsEmpty c := ⟨h.balanced, h.entries⟩

/-- Declining entries from now on, or no longer. -/
def tuning (on : Bool) : LawfulCache.Tuning (RecordingCache γ) where
  apply := decline on
  balanced _ h := h
  entries _ := List.Subset.refl _

end RecordingCache

end Guestbook
