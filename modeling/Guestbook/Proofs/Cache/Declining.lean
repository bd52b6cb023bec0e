import Guestbook.Proofs.Cache.Tally

/-!
# Caches that take nothing

A cache that declines whatever it is offered never holds anything, so every look-up misses. To a
board it is as if there were no cache. A recording cache that is told to decline is one, whatever
kind of cache is inside.

## Main definitions
- `TakesNothing`: a property that only such caches have
- `RecordingCache.Declining`: recording caches that decline what they are offered
-/

namespace Guestbook

open Guestbook.Action (Preserves)

/-- A cache with `P` holds nothing, costs nothing and declines whatever it is offered, and goes on
to have `P`. -/
structure TakesNothing {γ : Type} [Cache γ] [LawfulCache γ] (P : γ → Prop) : Prop where
  isEmpty : ∀ {c}, P c → LawfulCache.IsEmpty c
  cost : ∀ {c}, P c → (Cache.stats c).cost = 0
  get : ∀ key, Preserves P (Cache.get key : Action γ (Option Bytes))
  set : ∀ {c}, P c → ∀ key bytes cost, (Cache.set key bytes cost c).Satisfies
    (fun accepted c' => accepted = false ∧ P c') fun _ _ => False
  clear : Preserves P (Cache.clear : Action γ Unit)

namespace TakesNothing

variable {γ : Type} [Cache γ] [LawfulCache γ] {P : γ → Prop} {c : γ}

/-- A cache that holds nothing has nothing under any key. -/
theorem answer_get (h : TakesNothing P) (hc : P c) (key : String) :
    (Cache.get key c).answer = .ok none := by
  have hempty := h.isEmpty hc
  obtain ⟨found, hanswer, -, hfound⟩ :=
    (LawfulCache.satisfies_get hempty.balanced key).answers fun _ _ => id
  cases found with
  | none => exact hanswer
  | some bytes =>
    have hentry := hfound bytes rfl
    rw [hempty.entries] at hentry
    exact absurd hentry List.not_mem_nil

theorem preserves_set (h : TakesNothing P) (key : String) (bytes : Bytes) (cost : Cost) :
    Preserves P (Cache.set key bytes cost : Action γ Bool) :=
  Preserves.of_satisfies fun _ hc =>
    (h.set hc key bytes cost).imp (fun _ _ hpost => hpost.2) fun _ _ => False.elim

end TakesNothing

namespace RecordingCache

variable {γ : Type} [Cache γ] [LawfulCache γ]

/-- A recording cache that is told to decline what it is offered, around a cache that holds
nothing. -/
structure Declining (c : RecordingCache γ) : Prop where
  declining : c.declining = true
  isEmpty : LawfulCache.IsEmpty c.inner
  cost : (Cache.stats c.inner).cost = 0

theorem takesNothing_declining [TalliedCache γ] :
    TakesNothing (Declining : RecordingCache γ → Prop) where
  isEmpty h := isEmpty_of_inner h.isEmpty
  cost h := h.cost
  get key := by
    apply Preserves.of_satisfies
    intro c h
    show (get key c).Satisfies _ _
    unfold get
    simp only [Action.satisfies_bind, satisfies_count, satisfies_inside]
    refine (LawfulCache.satisfies_get h.isEmpty.balanced key).imp ?_ fun _ _ => False.elim
    intro found inner hpost
    obtain ⟨⟨hbalanced, hsubset, hcost⟩, -⟩ := hpost
    -- A look-up adds no entry, so the cache inside stays empty.
    rw [h.isEmpty.entries] at hsubset
    have hempty : LawfulCache.IsEmpty inner := ⟨hbalanced, List.subset_nil.mp hsubset⟩
    split <;> exact ⟨h.declining, hempty, hcost.trans h.cost⟩
  set {c} h key bytes cost := by
    show (set key bytes cost c).Satisfies _ _
    unfold set
    simp only [Action.satisfies_bind, satisfies_count, Action.satisfies_state]
    -- The cache inside does not see the offer.
    rw [if_pos h.declining]
    exact ⟨rfl, h.declining, h.isEmpty, h.cost⟩
  clear := by
    apply Preserves.of_satisfies
    intro c h
    show (clear c).Satisfies _ _
    unfold clear
    simp only [Action.satisfies_bind, satisfies_count, satisfies_inside]
    refine ((LawfulCache.satisfies_clear c.inner).and
      (TalliedCache.satisfies_clear c.inner)).imp ?_ fun _ _ h => h.1.elim
    intro _ inner hpost
    obtain ⟨⟨hbalanced, hentries⟩, hcleared⟩ := hpost
    exact ⟨h.declining, ⟨hbalanced, hentries⟩, hcleared.emptied.cost⟩

end RecordingCache

end Guestbook
