import Mathlib.Algebra.Ring.Nat
import Guestbook.Cache.Lru
import Guestbook.Proofs.Action

/-!
# The recorded cost of a cost-bounded cache

The recorded cost is the total cost of the entries held. Every operation keeps it so, also one that
stops because a sum of costs is beyond a word: it stops before the entry that would break the
account is pushed.

## Main definitions
- `LruCache.totalCost`: total cost of a list of entries
- `LruCache.Balanced`: the recorded cost is the total cost

## Main statements
- `makeRoom_spec`: what is left after making room
- `satisfies_accept`: what a cache holds after it took an entry
- `balanced_get`, `satisfies_set`: what the operations keep
-/

namespace Guestbook.LruCache

open Outcome (Satisfies)

/-- Total cost of a list of entries. -/
def totalCost (entries : List Entry) : Nat := (entries.map fun e => e.cost.toNat).sum

@[simp] theorem totalCost_cons (e : Entry) (entries : List Entry) :
    totalCost (e :: entries) = e.cost.toNat + totalCost entries := by
  simp [totalCost]

theorem totalCost_le_of_sublist {kept entries : List Entry} (h : kept.Sublist entries) :
    totalCost kept ≤ totalCost entries := by
  induction h with
  | slnil => exact Nat.le_refl _
  | cons e _ ih =>
    rw [totalCost_cons]
    exact Nat.le_add_left_of_le ih
  | cons_cons e _ ih =>
    rw [totalCost_cons, totalCost_cons]
    exact Nat.add_le_add_left ih _

@[simp] theorem totalCost_reverse (entries : List Entry) :
    totalCost entries.reverse = totalCost entries := by
  simp [totalCost]

/-- The recorded cost is the total cost of the entries. -/
def Balanced (c : LruCache) : Prop := c.cost.toNat = totalCost c.entries

/-! ## Cost arithmetic -/

theorem add_of_lt {a b : Cost} (h : a.toNat + b.toNat < UInt64.size) :
    ∃ total, Cost.add a b = .ok total ∧ total.toNat = a.toNat + b.toNat := by
  refine ⟨a + b, if_pos h, ?_⟩
  rw [UInt64.toNat_add]
  exact Nat.mod_eq_of_lt h

theorem add_of_le {a b : Cost} (h : UInt64.size ≤ a.toNat + b.toNat) :
    Cost.add a b = .error .addOverflow :=
  if_neg (Nat.not_lt.mpr h)

theorem sub_of_le {a b : Cost} (h : b.toNat ≤ a.toNat) :
    ∃ left, Cost.sub a b = .ok left ∧ left.toNat = a.toNat - b.toNat :=
  ⟨a - b, if_pos h, UInt64.toNat_sub_of_le _ _ (UInt64.le_iff_toNat_le.mpr h)⟩

/-- A sum that is answered is exact. -/
theorem toNat_of_add {a b total : Cost} (h : Cost.add a b = .ok total) :
    total.toNat = a.toNat + b.toNat := by
  rcases Nat.lt_or_ge (a.toNat + b.toNat) UInt64.size with hlt | hge
  · obtain ⟨sum, hsum, hvalue⟩ := add_of_lt hlt
    obtain rfl := Except.ok.inj (h.symm.trans hsum)
    exact hvalue
  · exact nomatch h.symm.trans (add_of_le hge)

/-! ## Looking up -/

theorem without_cons (key : String) (e : Entry) (entries : List Entry) :
    without key (e :: entries) = if e.key = key then entries else e :: without key entries := by
  rw [without, List.eraseP_cons, without]
  simp only [Bool.cond_decide]

/-- The entry found under a key is the one that is left out without that key. -/
theorem totalCost_without {key : String} {entries : List Entry} {e : Entry}
    (h : (entries.find? fun e => e.key = key) = some e) :
    totalCost entries = e.cost.toNat + totalCost (without key entries) := by
  induction entries with
  | nil => simp at h
  | cons head rest ih =>
    by_cases hkey : head.key = key
    · -- The head is the entry found, and the first one left out.
      rw [List.find?_cons_of_pos (by simpa using hkey)] at h
      obtain rfl := Option.some.inj h
      rw [without_cons, if_pos hkey, totalCost_cons]
    · rw [List.find?_cons_of_neg (by simpa using hkey)] at h
      rw [without_cons, if_neg hkey, totalCost_cons, totalCost_cons, ih h]
      omega

theorem without_sublist (key : String) (entries : List Entry) :
    (without key entries).Sublist entries :=
  List.eraseP_sublist

theorem without_subset (key : String) (entries : List Entry) : without key entries ⊆ entries :=
  (without_sublist key entries).subset

/-- Nothing is left out without a key that no entry has. -/
theorem without_of_find?_eq_none {key : String} {entries : List Entry}
    (h : (entries.find? fun e => e.key = key) = none) : without key entries = entries := by
  apply List.eraseP_of_forall_not
  intro e he
  exact List.find?_eq_none.mp h e he

theorem mem_of_find? {c : LruCache} {key : String} {e : Entry} (h : c.find? key = some e) :
    e ∈ c.entries ∧ e.key = key :=
  ⟨List.mem_of_find?_eq_some h, by simpa using List.find?_some h⟩

/-! ## Making room -/

/-- What is left after making room: the last entries of the list with their total cost, beside which
the new entry fits if it fits at all. Only a sum beyond a word makes it fail, and then before
anything is dropped. -/
theorem makeRoom_spec {maxCost incoming : Cost} {entries : List Entry} {cost : Cost} {room : Room}
    (h : cost.toNat = totalCost entries) (hroom : makeRoom maxCost incoming entries cost = room) :
    room.kept <:+ entries ∧ room.cost.toNat = totalCost room.kept ∧
      (room.answer = .ok () ∧ cost.toNat + incoming.toNat < UInt64.size ∧
          (incoming ≤ maxCost → room.cost.toNat + incoming.toNat ≤ maxCost.toNat) ∨
        room.answer = .error .addOverflow ∧ UInt64.size ≤ cost.toNat + incoming.toNat ∧
          room.kept = entries) := by
  induction entries generalizing cost room with
  | nil =>
    -- Nothing is left to drop, and the new entry alone costs a word at most.
    have hcost : cost.toNat = 0 := h
    have hlt : cost.toNat + incoming.toNat < UInt64.size := by
      rw [hcost, Nat.zero_add]
      exact incoming.toNat_lt
    obtain ⟨total, hadd, -⟩ := add_of_lt hlt
    simp only [makeRoom, hadd] at hroom
    subst hroom
    refine ⟨List.suffix_rfl, hcost, .inl ⟨rfl, hlt, ?_⟩⟩
    intro hle
    rw [UInt64.le_iff_toNat_le] at hle
    dsimp only
    omega
  | cons e rest ih =>
    rw [totalCost_cons] at h
    rcases Nat.lt_or_ge (cost.toNat + incoming.toNat) UInt64.size with hlt | hge
    · obtain ⟨total, hadd, htotal⟩ := add_of_lt hlt
      obtain ⟨left, hsub, hleft⟩ := sub_of_le (a := cost) (b := e.cost) (by omega)
      simp only [makeRoom, hadd, hsub] at hroom
      split at hroom
      · -- The new entry fits.
        next hfits =>
        rw [UInt64.le_iff_toNat_le, htotal] at hfits
        subst hroom
        exact ⟨List.suffix_rfl, h.trans (totalCost_cons e rest).symm,
          .inl ⟨rfl, hlt, fun _ => hfits⟩⟩
      · -- The entry is dropped, and its cost is part of the total, so the subtraction is exact.
        subst hroom
        have hleftBalance : left.toNat = totalCost rest := by omega
        obtain ⟨hsuffix, hbalance, hanswer⟩ := ih hleftBalance rfl
        refine ⟨hsuffix.trans (List.suffix_cons e rest), hbalance, .inl ?_⟩
        rcases hanswer with ⟨hok, -, hfits⟩ | ⟨-, hge, -⟩
        · exact ⟨hok, hlt, hfits⟩
        · -- With less to add to, the sum stays a word.
          omega
    · -- The sum is beyond a word: nothing is dropped.
      simp only [makeRoom, add_of_le hge] at hroom
      subst hroom
      exact ⟨List.suffix_rfl, h.trans (totalCost_cons e rest).symm, .inr ⟨rfl, hge, rfl⟩⟩

/-! ## Operations -/

theorem balanced_get {c : LruCache} (h : Balanced c) (key : String) :
    Balanced (get key c).state ∧ (get key c).state.cost = c.cost := by
  unfold get
  split
  · next e hfind =>
    refine ⟨?_, rfl⟩
    show c.cost.toNat = totalCost (e :: without key c.entries)
    rw [totalCost_cons, ← totalCost_without hfind]
    exact h
  · exact ⟨h, rfl⟩

theorem entries_get_subset (c : LruCache) (key : String) :
    (get key c).state.entries ⊆ c.entries := by
  unfold get
  split
  · next e hfind =>
    exact List.cons_subset.mpr ⟨(mem_of_find? hfind).1, without_subset key c.entries⟩
  · exact List.Subset.refl _

/-- A release takes the cost of what it drops off the account. -/
theorem satisfies_release {c : LruCache} (h : Balanced c) (key : String) :
    (release key c).Satisfies
      (fun _ c' => Balanced c' ∧ c'.entries = without key c.entries ∧ c'.maxCost = c.maxCost)
      fun _ _ => False := by
  unfold release
  cases hfind : c.find? key with
  | none => exact ⟨h, (without_of_find?_eq_none hfind).symm, rfl⟩
  | some e =>
    have htotal : c.cost.toNat = e.cost.toNat + totalCost (without key c.entries) :=
      h.trans (totalCost_without hfind)
    obtain ⟨left, hsub, hleft⟩ := sub_of_le (a := c.cost) (b := e.cost) (by omega)
    simp only [hsub]
    refine ⟨?_, rfl, rfl⟩
    show left.toNat = totalCost (without key c.entries)
    omega

/-- Making room keeps the entries used last. It drops none if the sum of the costs is beyond a word,
which is the only way to fail. -/
theorem satisfies_evict {c : LruCache} (h : Balanced c) (incoming : Cost) :
    (evict incoming c).Satisfies
      (fun _ c' => (Balanced c' ∧ c'.entries <+: c.entries ∧ c'.maxCost = c.maxCost) ∧
        c.cost.toNat + incoming.toNat < UInt64.size ∧
          (incoming ≤ c.maxCost → c'.cost.toNat + incoming.toNat ≤ c.maxCost.toNat))
      fun why c' => (Balanced c' ∧ c'.entries = c.entries ∧ c'.maxCost = c.maxCost) ∧
        why = .fault .addOverflow ∧ UInt64.size ≤ c.cost.toNat + incoming.toNat := by
  have hreverse : c.cost.toNat = totalCost c.entries.reverse := h.trans (totalCost_reverse _).symm
  -- Entries are dropped from the least recently used one on, which is the head of the reverse.
  unfold evict
  generalize hroom : makeRoom c.maxCost incoming c.entries.reverse c.cost = room
  obtain ⟨hsuffix, hbalance, hanswer⟩ := makeRoom_spec hreverse hroom
  have hkept : room.cost.toNat = totalCost room.kept.reverse :=
    hbalance.trans (totalCost_reverse _).symm
  obtain ⟨answer, kept, cost, dropped⟩ := room
  rcases hanswer with ⟨rfl, hlt, hfits⟩ | ⟨rfl, hge, rfl⟩
  · refine ⟨⟨hkept, ?_, rfl⟩, hlt, hfits⟩
    rw [← List.reverse_suffix, List.reverse_reverse]
    exact hsuffix
  · exact ⟨⟨hkept, List.reverse_reverse _, rfl⟩, rfl, hge⟩

theorem satisfies_push {c : LruCache} (h : Balanced c) (e : Entry)
    (hfits : c.cost.toNat + e.cost.toNat < UInt64.size) :
    (push e c).Satisfies
      (fun _ c' => Balanced c' ∧ c'.entries = e :: c.entries ∧ c'.maxCost = c.maxCost)
      fun _ _ => False := by
  obtain ⟨total, hadd, htotal⟩ := add_of_lt hfits
  simp only [push, hadd]
  refine ⟨?_, rfl, rfl⟩
  show total.toNat = totalCost (e :: c.entries)
  rw [totalCost_cons, htotal, h, Nat.add_comm]

/-- An entry that is taken comes first, before the entries under other keys that were used last. It
is not taken only if those and the new entry cost more than a word together, and then all of them
stay. -/
theorem satisfies_accept {c : LruCache} (h : Balanced c) (e : Entry) :
    (accept e c).Satisfies
      (fun accepted c' => accepted = true ∧ (Balanced c' ∧ c'.maxCost = c.maxCost) ∧
        totalCost (without e.key c.entries) + e.cost.toNat < UInt64.size ∧
          (e.cost ≤ c.maxCost → c'.cost ≤ c.maxCost) ∧
            ∃ kept, kept <+: without e.key c.entries ∧ c'.entries = e :: kept)
      fun why c' => (Balanced c' ∧ c'.maxCost = c.maxCost) ∧ why = .fault .addOverflow ∧
        UInt64.size ≤ totalCost (without e.key c.entries) + e.cost.toNat ∧
          c'.entries = without e.key c.entries := by
  unfold accept
  rw [Action.satisfies_bind]
  refine (satisfies_release h e.key).imp ?_ fun _ _ => False.elim
  rintro _ c₁ ⟨hbalance₁, hentries₁, hmax₁⟩
  have hcost₁ : c₁.cost.toNat = totalCost (without e.key c.entries) := by rw [hbalance₁, hentries₁]
  rw [Action.satisfies_bind]
  apply (satisfies_evict hbalance₁ e.cost).imp
  · rintro _ c₂ ⟨⟨hbalance₂, hfirst, hmax₂⟩, hlt, hfits⟩
    have hle : c₂.cost.toNat ≤ c₁.cost.toNat := by
      rw [hbalance₁, hbalance₂]
      exact totalCost_le_of_sublist hfirst.sublist
    rw [Action.satisfies_bind]
    refine (satisfies_push hbalance₂ e (by omega)).imp ?_ fun _ _ => False.elim
    rintro _ c₃ ⟨hbalance₃, hentries₃, hmax₃⟩
    rw [Action.satisfies_pure]
    refine ⟨rfl, ⟨hbalance₃, ?_⟩, hcost₁ ▸ hlt, ?_, c₂.entries, hentries₁ ▸ hfirst, hentries₃⟩
    · rw [hmax₃, hmax₂, hmax₁]
    · intro hbudget
      have htotal : c₃.cost.toNat = e.cost.toNat + c₂.cost.toNat := by
        rw [hbalance₃, hentries₃, totalCost_cons, ← hbalance₂]
      rw [hmax₁] at hfits
      have hfit := hfits hbudget
      rw [UInt64.le_iff_toNat_le]
      omega
  · rintro why c₂ ⟨⟨hbalance₂, hentries₂, hmax₂⟩, hwhy, hge⟩
    exact ⟨⟨hbalance₂, hmax₂.trans hmax₁⟩, hwhy, hcost₁ ▸ hge, hentries₂.trans hentries₁⟩

/-- Offering an entry keeps the account and adds no other entry. It fails only when the recorded
cost and the cost of the entry are together beyond a word. -/
theorem satisfies_set {c : LruCache} (h : Balanced c) (key : String) (bytes : Bytes) (cost : Cost) :
    (set key bytes cost c).Satisfies
      (fun _ c' => Balanced c' ∧ c'.entries ⊆ ⟨key, bytes, cost⟩ :: c.entries)
      fun why c' => (Balanced c' ∧ c'.entries ⊆ ⟨key, bytes, cost⟩ :: c.entries) ∧
        why = .fault .addOverflow ∧ UInt64.size ≤ c.cost.toNat + cost.toNat := by
  unfold set
  split
  · -- An entry beyond the budget is declined.
    exact ⟨h, List.subset_cons_self _ _⟩
  · have hwithout := without_subset key c.entries
    apply (satisfies_accept h ⟨key, bytes, cost⟩).imp
    · rintro _ c' ⟨-, ⟨hbalance, -⟩, -, -, kept, hfirst, hentries⟩
      rw [hentries]
      exact ⟨hbalance, List.cons_subset_cons _ (List.Subset.trans hfirst.subset hwithout)⟩
    · rintro why c' ⟨⟨hbalance, -⟩, hwhy, hge, hentries⟩
      rw [hentries]
      -- What is left out only lowers the cost, so the sum was beyond a word before it already.
      have hle := totalCost_le_of_sublist (without_sublist key c.entries)
      dsimp only at hge
      exact ⟨⟨hbalance, List.subset_cons_of_subset _ hwithout⟩, hwhy, by rw [h]; omega⟩

end Guestbook.LruCache
