import Guestbook.Proofs.Board.Contents

/-!
# Reading without a cache

The same records and the same counter behind a new gate and an empty cache: the page that such a
board answers is the page of the records, whatever the cache of the board that holds them.

## Main definitions
- `Board.uncached`: the board over the same data with an empty cache

## Main statements
- `page_uncached`: the page that it answers
-/

namespace Guestbook.Board

open Outcome (Satisfies)

variable {γ : Type} {b : Board (ObservedStore MemoryStore) γ} {log : List Message} {issued : Int}
  {timed : Bool}

/-- A board over the same records and counter with an empty cache. -/
def uncached (b : Board (ObservedStore MemoryStore) γ) :
    Board (ObservedStore MemoryStore) MapCache where
  store := {
    inner := { records := b.store.inner.records, counterRecord := b.store.inner.counterRecord } }
  cache := {}

variable [Cache γ] [LawfulCache γ]

theorem Keeps.uncached (h : Keeps b timed log issued) : Keeps b.uncached timed log issued :=
  ⟨⟨rfl, rfl, fun _ _ => rfl⟩, h.store.congr rfl rfl, .of_isEmpty MapCache.isEmpty_new⟩

omit [Cache γ] [LawfulCache γ] in
theorem serves_uncached (method : StoreMethod) : b.uncached.store.Serves method :=
  .of_no_mishaps rfl rfl rfl method

omit [Cache γ] [LawfulCache γ] in
/-- Without a cache that costs anything, a page stops only if it is not valid or not countable. -/
private theorem not_pageStop_uncached {page size : Int64} (hpage : Page.Partial log page size)
    {why : Stop} : ¬ b.uncached.PageStop log page size why := by
  rintro (hinvalid | hrefuses | huncountable | @⟨ms, -, hcost⟩)
  · exact hinvalid ⟨hpage.page_pos, hpage.size_pos⟩
  · exact not_refusesPage (fun method _ => serves_uncached method) hrefuses
  · exact absurd hpage.countable (Int.not_lt.mpr huncountable)
  · -- A map cache counts no cost, and one entry alone costs a word.
    have hword : (price ms).toNat < UInt64.size := (price ms).toNat_lt
    have hnothing : (Cache.stats b.uncached.cache).cost = 0 := rfl
    omega

/-- A page that does not hold the whole log shows its contents. -/
theorem page_uncached (h : Keeps b timed log issued) {page size : Int64}
    (hpage : Page.Partial log page size) :
    (Board.page page size b.uncached).answer = .ok (Page.contents log page size) := by
  -- The board without a cache keeps the same log, so the page that it answers shows its contents.
  obtain ⟨ms, hanswer, hshows, -⟩ := (satisfies_page h.uncached page size).answers
    fun _ _ hstop => not_pageStop_uncached hpage hstop.1
  rw [hanswer, (hshows.part hpage.size_lt).2]

end Guestbook.Board
