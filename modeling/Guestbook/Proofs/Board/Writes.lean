import Guestbook.Proofs.Board.Contents

/-!
# Writes

On a board that keeps a log, posting appends to the log and deleting filters it. Neither leaves an
entry in the cache that an older log was the source of: the cache is dropped whenever a write may
have had its effect.

## Main statements
- `satisfies_post`, `satisfies_delete`: a write on the log
-/

namespace Guestbook

open Outcome (Satisfies)

namespace Board

variable {γ : Type} [Cache γ] [LawfulCache γ] {b c : Board (ObservedStore MemoryStore) γ}
  {log : List Message} {issued : Int} {timed : Bool}

/-- A cleared cache holds nothing, so it is current whatever the log. -/
theorem satisfies_clear :
    (atCache Cache.clear b).Satisfies
      (fun _ c => ∃ cache, c = { b with cache } ∧ ∀ P, Caches P cache) fun _ _ => False := by
  rw [satisfies_atCache]
  refine (LawfulCache.satisfies_clear b.cache).imp ?_ fun _ _ => id
  rintro - cache ⟨hbalanced, hentries⟩
  exact ⟨cache, rfl, fun _ => .of_isEmpty ⟨hbalanced, hentries⟩⟩

/-! ## Posting -/

/-- A post appends its message under the next id. One that fails leaves the log as it was, with the
id issued or not. -/
theorem satisfies_post (h : Keeps b timed log issued) (m : Message) :
    (post m b).Satisfies
      (fun id c => id.toInt = issued + 1 ∧ Keeps c timed (log ++ [{ m with id }]) (issued + 1))
      fun why c => why.SparesCache ∧ ∃ issued', Keeps c timed log issued' := by
  unfold post
  rw [Action.satisfies_bind, satisfies_atStore]
  apply (ObservedStore.satisfies_increment h.settled.idle h.store.counts 1).imp
  · intro id store hpost
    obtain ⟨⟨hid, hcounts⟩, r, hstore⟩ := hpost
    rw [Word.toInt_one] at hid hcounts
    have hsettled : Settled { b with store } := h.settled.became hstore
    have hkeeps : store.inner.Keeps log (issued + 1) :=
      h.store.increment (by omega) hcounts hstore.inner
    rw [Action.satisfies_bind, Action.satisfies_attempt, satisfies_atStore]
    apply (ObservedStore.satisfies_put hsettled.idle id _).imp
    · rintro - store' hstore'
      rw [Action.satisfies_bind]
      refine satisfies_clear.imp ?_ fun _ _ h => h.elim
      rintro - c ⟨cache, rfl, hcache⟩
      rw [Action.satisfies_bind, Action.satisfies_orFail_ok, Action.satisfies_bind,
        Action.satisfies_report, Action.satisfies_pure]
      have hissued := h.store.issued_nonneg
      -- All ids of the log were issued before this one.
      have habove : ∀ m' ∈ log, m'.id < id := by
        intro m' hm'
        have hm'' := (h.store.ids m' hm').2
        rw [Int64.lt_iff_toInt_lt]
        omega
      have happend := hkeeps.append (m := { m with id }) (by show 1 ≤ id.toInt; omega)
        (by show id.toInt ≤ _; omega) habove hstore'.inner
      exact ⟨hid, (hsettled.became hstore').withCache cache, happend, hcache _⟩
    · intro why store' hpost
      obtain ⟨hrefuses, hstore'⟩ := hpost
      -- The id is spent, the message is not stored, and the cache is dropped all the same.
      have hspent : Keeps { b with store := store' } timed log (issued + 1) :=
        Keeps.of_stayed ⟨hsettled, hkeeps, h.cache⟩ ⟨hstore', rfl⟩ h.cache
      have hspares := hrefuses.sparesCache
      cases why with
      | error cause =>
        dsimp only
        rw [Action.satisfies_bind]
        refine satisfies_clear.imp ?_ fun _ _ h => h.elim
        rintro - c ⟨cache, rfl, hcache⟩
        rw [Action.satisfies_bind, Action.satisfies_orFail_error]
        exact ⟨hspares, issued + 1, hspent.settled.withCache cache, hspent.store, hcache _⟩
      | fault cause => exact ⟨hspares, issued + 1, hspent⟩
      | endless => exact ⟨hspares, issued + 1, hspent⟩
  · intro why store hpost
    obtain ⟨hwhy, hstore⟩ := hpost
    -- No id was issued and nothing was stored, so the cache may stay.
    refine ⟨?_, issued, h.of_stayed ⟨hstore, rfl⟩ h.cache⟩
    rcases hwhy with hrefuses | ⟨rfl, -⟩
    · exact hrefuses.sparesCache
    · exact .fault _

/-! ## Deleting -/

/-- A delete leaves out the message with the id and answers whether there was one. One that fails
leaves the log as it was. -/
theorem satisfies_delete (h : Keeps b timed log issued) (id : Int64) :
    (delete id b).Satisfies
      (fun existed c => existed = decide (id ∈ log.map (·.id)) ∧
        Keeps c timed (log.filter fun m => m.id ≠ id) issued)
      fun why c => b.store.Refuses (.delete id) why ∧ Keeps c timed log issued := by
  unfold delete
  rw [Action.satisfies_bind]
  refine satisfies_clear.imp ?_ fun _ _ h => h.elim
  rintro - c ⟨cache, rfl, hcache⟩
  -- The cache is empty before the store is called, so it is current even if the call fails.
  rw [Action.satisfies_bind, satisfies_atStore]
  apply (ObservedStore.satisfies_delete h.settled.idle id).imp
  · rintro existed store ⟨rfl, hstore⟩
    rw [Action.satisfies_bind, Action.satisfies_report, Action.satisfies_pure]
    exact ⟨h.store.contains id, (h.settled.became hstore).withCache cache,
      h.store.erase hstore.inner, hcache _⟩
  · intro why store hpost
    obtain ⟨hrefuses, hstore⟩ := hpost
    exact ⟨hrefuses, h.of_stayed ⟨hstore, rfl⟩ (hcache _)⟩

end Board

end Guestbook
