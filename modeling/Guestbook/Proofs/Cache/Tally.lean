import Guestbook.Proofs.Cache.Lawful

/-!
# Caches that count their clears

Whatever a cache holds, a look-up adds no entry and an offer that stops adds none either, only a
clear is counted as one, and after a clear the statistics tell of nothing held. Unlike the laws of a
lawful cache this is asked of every state, whether or not the account of costs is in order.

## Main definitions
- `TalliedCache`: the laws, for every state
- `TalliedCache.AddsNothing`: a step of a cache that adds no entry and is no clear
- `TalliedCache.Emptied`, `TalliedCache.Cleared`: a cache that holds nothing and says so

## Main statements
- `TalliedCache.satisfies_clear`: a clear empties a cache
- `LruCache.kept_makeRoom`, `LruCache.add_of_makeRoom`: making room, whatever the recorded cost is
-/

namespace Guestbook

open Outcome (Satisfies)

namespace TalliedCache

/-- `c'` holds no entry that `c` does not hold, and was cleared as often. -/
structure AddsNothing {γ : Type} [Cache γ] [LawfulCache γ] (c c' : γ) : Prop where
  entries : LawfulCache.entries c' ⊆ LawfulCache.entries c
  clears : (Cache.stats c').clears = (Cache.stats c).clears

end TalliedCache

open TalliedCache (AddsNothing)

/-- A cache that counts its clears and adds no entry but one that it takes. -/
class TalliedCache (γ : Type) [Cache γ] [LawfulCache γ] : Prop where
  satisfies_get (c : γ) (key : String) :
    (Cache.get key c).Satisfies (fun _ c' => AddsNothing c c') fun _ c' => AddsNothing c c'
  satisfies_set (c : γ) (key : String) (bytes : Bytes) (cost : Cost) :
    (Cache.set key bytes cost c).Satisfies
      (fun _ c' => (Cache.stats c').clears = (Cache.stats c).clears)
      fun _ c' => AddsNothing c c'
  satisfies_stats_clear (c : γ) :
    (Cache.clear c).Satisfies
      (fun _ c' => ((Cache.stats c').entryCount = 0 ∧ (Cache.stats c').cost = 0) ∧
        (Cache.stats c').clears = (Cache.stats c).clears + 1)
      fun _ _ => False

namespace TalliedCache

variable {γ : Type} [Cache γ] [LawfulCache γ] {c c' : γ}

theorem AddsNothing.refl (c : γ) : AddsNothing c c := ⟨List.Subset.refl _, rfl⟩

theorem AddsNothing.trans {c'' : γ} (h : AddsNothing c c') (h' : AddsNothing c' c'') :
    AddsNothing c c'' :=
  ⟨List.Subset.trans h'.entries h.entries, h'.clears.trans h.clears⟩

/-- A cache that holds nothing and says so. -/
structure Emptied (c : γ) : Prop where
  entries : LawfulCache.entries c = []
  count : (Cache.stats c).entryCount = 0
  cost : (Cache.stats c).cost = 0

/-- `c'` is `c` after a clear that was counted. -/
structure Cleared (c c' : γ) : Prop where
  emptied : Emptied c'
  clears : (Cache.stats c').clears = (Cache.stats c).clears + 1

/-- A clear cannot fail. It empties the cache and is counted. -/
theorem satisfies_clear [TalliedCache γ] (c : γ) :
    (Cache.clear c).Satisfies (fun _ c' => Cleared c c') fun _ _ => False := by
  apply ((LawfulCache.satisfies_clear c).and (satisfies_stats_clear c)).imp
  · rintro _ c' ⟨⟨-, hentries⟩, ⟨hcount, hcost⟩, hclears⟩
    exact ⟨⟨hentries, hcount, hcost⟩, hclears⟩
  · exact fun _ _ h => h.1

end TalliedCache

/-! ## The map cache -/

instance : TalliedCache MapCache where
  satisfies_get c key := by
    show (MapCache.get key c).Satisfies _ _
    unfold MapCache.get
    split <;> exact ⟨List.Subset.refl _, rfl⟩
  satisfies_set _ _ _ _ := rfl
  satisfies_stats_clear _ := ⟨⟨rfl, rfl⟩, rfl⟩

/-! ## The cost-bounded cache -/

namespace LruCache

/-- Making room keeps the last entries of the list, also if the recorded cost is wrong. -/
theorem kept_makeRoom (maxCost incoming : Cost) (entries : List Entry) (cost : Cost) :
    (makeRoom maxCost incoming entries cost).kept <:+ entries := by
  fun_induction makeRoom maxCost incoming entries cost with
  | case1 => exact List.suffix_rfl
  | case2 => exact List.suffix_rfl
  | case3 => exact List.suffix_rfl
  | case4 => exact List.suffix_rfl
  | case5 => exact List.suffix_cons _ _
  | case6 _ _ _ _ _ _ _ _ _ ih => exact ih.trans (List.suffix_cons _ _)

/-- Room was made for an entry whose cost can be added to the recorded one. -/
theorem add_of_makeRoom {maxCost incoming : Cost} {entries : List Entry} {cost : Cost}
    (h : (makeRoom maxCost incoming entries cost).answer = .ok ()) :
    ∃ total, Cost.add (makeRoom maxCost incoming entries cost).cost incoming = .ok total := by
  fun_induction makeRoom maxCost incoming entries cost with
  | case1 cost total hadd => exact ⟨total, hadd⟩
  | case4 e rest cost total hadd hfits => exact ⟨total, hadd⟩
  | case6 e rest cost total hadd hover left hsub room ih => exact ih h
  | _ => exact nomatch h

theorem addsNothing_of_subset {c c' : LruCache} (hentries : c'.entries ⊆ c.entries)
    (hclears : c'.clears = c.clears) : AddsNothing c c' :=
  ⟨List.map_subset _ hentries, hclears⟩

theorem addsNothing_get (c : LruCache) (key : String) : AddsNothing c (get key c).state := by
  apply addsNothing_of_subset (entries_get_subset c key)
  unfold get
  split <;> rfl

/-- A release drops an entry at most, also if it cannot take its cost off. -/
theorem addsNothing_release (c : LruCache) (key : String) :
    AddsNothing c (release key c).state := by
  unfold release
  split
  · exact .refl c
  · dsimp only
    split <;> exact addsNothing_of_subset (without_subset key c.entries) rfl

/-- Once room is made for an entry its cost can be added. -/
theorem satisfies_evict_any (c : LruCache) (incoming : Cost) :
    (evict incoming c).Satisfies
      (fun _ c' => AddsNothing c c' ∧ ∃ total, Cost.add c'.cost incoming = .ok total)
      fun _ c' => AddsNothing c c' := by
  have hkept := kept_makeRoom c.maxCost incoming c.entries.reverse c.cost
  have hadd := @add_of_makeRoom c.maxCost incoming c.entries.reverse c.cost
  unfold evict
  generalize makeRoom c.maxCost incoming c.entries.reverse c.cost = room at hkept hadd
  have hless : room.kept.reverse ⊆ c.entries := by
    rw [List.reverse_subset]
    exact List.Subset.trans hkept.subset (List.reverse_subset.mpr (List.Subset.refl _))
  obtain ⟨answer, kept, cost, dropped⟩ := room
  cases answer with
  | ok _ => exact ⟨addsNothing_of_subset hless rfl, hadd rfl⟩
  | error fault => exact addsNothing_of_subset hless rfl

/-- Taking an entry is no clear. If it stops it adds no entry: the new one is pushed only when its
cost can be added. -/
theorem satisfies_accept_any (c : LruCache) (e : Entry) :
    (accept e c).Satisfies (fun _ c' => c'.clears = c.clears) fun _ c' => AddsNothing c c' := by
  unfold accept
  rw [Action.satisfies_bind]
  apply (Satisfies.of_state (addsNothing_release c e.key)).imp
  · intro _ c₁ h₁
    rw [Action.satisfies_bind]
    apply (satisfies_evict_any c₁ e.cost).imp
    · rintro _ c₂ ⟨h₂, total, hadd⟩
      rw [Action.satisfies_bind]
      unfold push
      simp only [hadd]
      exact h₂.clears.trans h₁.clears
    · exact fun _ _ h₂ => h₁.trans h₂
  · exact fun _ _ => id

instance : TalliedCache LruCache where
  satisfies_get c key := .of_state (addsNothing_get c key)
  satisfies_set c key bytes cost := by
    show (set key bytes cost c).Satisfies _ _
    unfold set
    split
    · -- A declined entry is only counted.
      exact rfl
    · exact satisfies_accept_any c ⟨key, bytes, cost⟩
  satisfies_stats_clear _ := ⟨⟨rfl, rfl⟩, rfl⟩

end LruCache

/-! ## Either kind of cache, and recorded caches -/

namespace CacheBackend

variable {α : Type} {onMap : Action MapCache α} {onLru : Action LruCache α}
  {Q : α → CacheBackend → Prop} {E : Stop → CacheBackend → Prop}

theorem satisfies_dispatch_map (c : MapCache) :
    (dispatch onMap onLru (.map c)).Satisfies Q E ↔
      (onMap c).Satisfies (fun x c' => Q x (.map c')) fun why c' => E why (.map c') := Iff.rfl

theorem satisfies_dispatch_lru (c : LruCache) :
    (dispatch onMap onLru (.lru c)).Satisfies Q E ↔
      (onLru c).Satisfies (fun x c' => Q x (.lru c')) fun why c' => E why (.lru c') := Iff.rfl

theorem addsNothing_map {c c' : MapCache} (h : AddsNothing c c') :
    AddsNothing (CacheBackend.map c) (.map c') := ⟨h.entries, h.clears⟩

theorem addsNothing_lru {c c' : LruCache} (h : AddsNothing c c') :
    AddsNothing (CacheBackend.lru c) (.lru c') := ⟨h.entries, h.clears⟩

instance : TalliedCache CacheBackend where
  satisfies_get c key := by
    cases c with
    | map c =>
      exact (satisfies_dispatch_map c).mpr <| (TalliedCache.satisfies_get c key).imp
        (fun _ _ => addsNothing_map) fun _ _ => addsNothing_map
    | lru c =>
      exact (satisfies_dispatch_lru c).mpr <| (TalliedCache.satisfies_get c key).imp
        (fun _ _ => addsNothing_lru) fun _ _ => addsNothing_lru
  satisfies_set c key bytes cost := by
    cases c with
    | map c =>
      exact (satisfies_dispatch_map c).mpr <| (TalliedCache.satisfies_set c key bytes cost).imp
        (fun _ _ => id) fun _ _ => addsNothing_map
    | lru c =>
      exact (satisfies_dispatch_lru c).mpr <| (TalliedCache.satisfies_set c key bytes cost).imp
        (fun _ _ => id) fun _ _ => addsNothing_lru
  satisfies_stats_clear c := by
    cases c with
    | map c => exact TalliedCache.satisfies_stats_clear c
    | lru c => exact TalliedCache.satisfies_stats_clear c

end CacheBackend

namespace RecordingCache

variable {γ : Type} [Cache γ] [LawfulCache γ] [TalliedCache γ]

instance : TalliedCache (RecordingCache γ) where
  satisfies_get c key := by
    show (get key c).Satisfies _ _
    unfold get
    simp only [Action.satisfies_bind, satisfies_count, satisfies_inside]
    apply (TalliedCache.satisfies_get c.inner key).imp
    · intro found inner hinner
      split <;> exact ⟨hinner.entries, hinner.clears⟩
    · exact fun _ _ hinner => ⟨hinner.entries, hinner.clears⟩
  satisfies_set c key bytes cost := by
    show (set key bytes cost c).Satisfies _ _
    unfold set
    simp only [Action.satisfies_bind, satisfies_count, Action.satisfies_state]
    split
    · -- The cache inside does not see an offer that is declined.
      exact rfl
    · simp only [Action.satisfies_bind, satisfies_inside]
      apply (TalliedCache.satisfies_set c.inner key bytes cost).imp
      · intro accepted inner hclears
        cases accepted <;> exact hclears
      · exact fun _ _ hinner => ⟨hinner.entries, hinner.clears⟩
  satisfies_stats_clear c := by
    show (clear c).Satisfies _ _
    unfold clear
    simp only [Action.satisfies_bind, satisfies_count, satisfies_inside]
    exact TalliedCache.satisfies_stats_clear c.inner

end RecordingCache

end Guestbook
