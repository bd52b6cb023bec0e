import Guestbook.Proofs.Board.Run
import Guestbook.Proofs.Board.Uncached

/-!
# The contents of every page

While the store serves the calls that a page takes, every page is answered, and with contents that
the messages stored determine: all of them on a page that is large enough, a block of ids on a page
within the board, and the messages with the highest ids on any later page, however sparse the ids.

## Main definitions
- `Page.IsOf`: the contents of a page

## Main statements
- `page_of_run`: every page after every run
-/

namespace Guestbook

open Message (IdsIncrease)

/-! ## Contents -/

namespace Page

/-- The contents of a page of the messages stored. -/
structure IsOf (stored : List Message) (page size : Int64) (ms : List Message) : Prop where
  /-- A page that holds every message shows them all. -/
  whole : (stored.length : Int) ≤ size.toInt → ms.Perm stored
  /-- A page within the board shows the ids of its block. -/
  block : size.toInt < stored.length → page.toInt ≤ stored.length / size.toInt →
    ms = stored.filter fun m =>
      (page.toInt - 1) * size.toInt ≤ m.id.toInt && m.id.toInt ≤ page.toInt * size.toInt - 1
  /-- A later page shows the messages with the highest ids, as many as it holds. -/
  last : size.toInt < stored.length → stored.length / size.toInt < page.toInt →
    ms = stored.drop (stored.length - size.toInt.toNat) ∧ (ms.length : Int) = size.toInt
  inOrder : size.toInt < stored.length → IdsIncrease ms

variable {log : List Message} {page size : Int64}

/-- The contents of a page that does not hold the whole log. -/
theorem Partial.isOf_contents (hpage : Partial log page size) (hlog : IdsIncrease log) :
    IsOf log page size (contents log page size) := by
  have hsize := hpage.size_lt
  have hpos := hpage.size_pos
  refine ⟨fun hwhole => absurd hwhole (Int.not_le.mpr hsize), ?_, ?_, ?_⟩
  · intro _ hblock
    rw [contents, if_pos hblock]
  · intro _ hlast
    rw [contents, if_neg (Int.not_le.mpr hlast), List.length_drop]
    exact ⟨rfl, by omega⟩
  · intro _
    exact hlog.sublist (contents_sublist log page size)

end Page

namespace Board

variable {γ : Type} [Cache γ] [LawfulCache γ] {b : Board (ObservedStore MemoryStore) γ}
  {log : List Message} {issued : Int} {timed : Bool} {page size : Int64} {ms : List Message}

omit [LawfulCache γ] in
/-- What a page shows are its contents. -/
theorem Shows.isOf (hshows : b.Shows timed log page size ms) (hlog : IdsIncrease log) :
    Page.IsOf log page size ms := by
  by_cases hsize : size.toInt < log.length
  · obtain ⟨hpage, rfl⟩ := hshows.part hsize
    exact hpage.isOf_contents hlog
  · have hperm : ms.Perm log := by
      rcases current_allMessagesKey.mp (hshows.whole (Int.not_lt.mp hsize)).1 with rfl | ⟨-, rfl⟩
      · exact List.Perm.refl ms
      · exact Message.sortByTimestamp_perm log
    exact ⟨fun _ => hperm, fun h => absurd h hsize, fun h => absurd h hsize,
      fun h => absurd h hsize⟩

omit [LawfulCache γ] in
/-- A read under a key answers one list. -/
theorem Serves.unique {key : String} {stored ms ms' : List Message} (h : b.Serves key stored ms)
    (h' : b.Serves key stored ms') : ms = ms' := by
  rcases h with ⟨hnone, rfl⟩ | ⟨bytes, hsome, hdecode⟩
  · rcases h' with ⟨-, rfl⟩ | ⟨bytes', hsome', -⟩
    · rfl
    · exact nomatch hnone.symm.trans hsome'
  · rcases h' with ⟨hnone', -⟩ | ⟨bytes', hsome', hdecode'⟩
    · exact nomatch hsome.symm.trans hnone'
    · obtain rfl := Option.some.inj (Except.ok.inj (hsome.symm.trans hsome'))
      exact Except.ok.inj (hdecode.symm.trans hdecode')

omit [LawfulCache γ] in
/-- All pages past the blocks show the same. -/
theorem Shows.eq_of_last {page' : Int64} {ms' : List Message}
    (h : b.Shows timed log page size ms) (h' : b.Shows timed log page' size ms')
    (hlast : log.length / size.toInt < page.toInt)
    (hlast' : log.length / size.toInt < page'.toInt) : ms = ms' := by
  by_cases hsize : size.toInt < log.length
  · rw [(h.part hsize).2, (h'.part hsize).2, Page.contents, Page.contents,
      if_neg (Int.not_le.mpr hlast), if_neg (Int.not_le.mpr hlast')]
  · have hwhole := Int.not_lt.mp hsize
    exact (h.whole hwhole).2.unique (h'.whole hwhole).2

end Board

namespace History

variable {γ : Type} [Cache γ] [LawfulCache γ]

/-- After every run of a new board, every page of every size is answered while the store serves the
calls that it takes. What it shows are its contents; all pages past the blocks show the same, and a
page that does not hold every message shows the same as without a cache. -/
theorem page_of_run {cache : γ} (hcache : LawfulCache.IsEmpty cache) (reachable : Bool)
    (moves : List (Move γ)) {b : Board (ObservedStore MemoryStore) γ}
    (hb : b = ((opened reachable cache).play moves).board)
    (hserves : ∀ method ∈ Board.pageMethods, b.store.Serves method) (hroom : b.HasRoom)
    {page size : Int64} (hpage : 1 ≤ page.toInt) (hsize : 1 ≤ size.toInt) :
    IdsIncrease b.store.inner.messages ∧
    ∃ ms, (Board.page page size b).answer = .ok ms ∧
      Page.IsOf b.store.inner.messages page size ms ∧
      (b.store.inner.messages.length / size.toInt < page.toInt → ∀ page' : Int64,
        b.store.inner.messages.length / size.toInt < page'.toInt →
        (Board.page page' size b).answer = .ok ms) ∧
      (size.toInt < b.store.inner.messages.length →
        (Board.page page size b.uncached).answer = .ok ms) := by
  subst hb
  obtain ⟨issued, hkeeps⟩ := keeps_run hcache reachable moves
  obtain ⟨ms, hanswer, hshows⟩ := Board.answer_page hkeeps hroom hserves ⟨hpage, hsize⟩
  have hlog := hkeeps.store.idsIncrease
  rw [hkeeps.store.messages]
  refine ⟨hlog, ms, hanswer, hshows.isOf hlog, ?_, ?_⟩
  · -- All pages past the blocks make the same search.
    intro hlast page' hlast'
    have hpage' : 1 ≤ page'.toInt := by
      have hnonneg := Int.ediv_nonneg (Int.natCast_nonneg
        ((opened reachable cache).play moves).log.length) (Int.le_of_lt hsize)
      omega
    obtain ⟨ms', hanswer', hshows'⟩ := Board.answer_page hkeeps hroom hserves ⟨hpage', hsize⟩
    rw [hanswer', hshows.eq_of_last hshows' hlast hlast']
  · -- A hit and a miss show the same contents.
    intro hpart
    obtain ⟨hpartial, rfl⟩ := hshows.part hpart
    exact Board.page_uncached hkeeps hpartial

/-- Posts under the ids one to four, of which the second is not stored and the third is deleted. -/
def sparseMoves : List (Move LruCache) :=
  [.request (.post { author := "a", text := "1" }), .mishap .put (.refused "disk full") 0,
    .request (.post { author := "b", text := "2" }),
    .request (.post { author := "c", text := "3" }),
    .request (.post { author := "d", text := "4" }), .request (.delete 3)]

/-- A board that holds the messages one and four. -/
def sparseBoard : Board (ObservedStore MemoryStore) LruCache :=
  ((opened true ({ maxCost := 1000 } : LruCache)).play sparseMoves).board

private theorem serves_sparseBoard (method : StoreMethod) : sparseBoard.store.Serves method :=
  .of_no_mishaps rfl rfl rfl method

private theorem hasRoom_sparseBoard : sparseBoard.HasRoom := by
  rw [Board.HasRoom]
  decide +kernel

/-- The third page of size one is past the blocks. -/
theorem page_of_run_sparse :
    (LawfulCache.IsEmpty ({ maxCost := 1000 } : LruCache) ∧
      (∀ method ∈ Board.pageMethods, sparseBoard.store.Serves method) ∧ sparseBoard.HasRoom ∧
      1 ≤ (3 : Int64).toInt ∧ 1 ≤ (1 : Int64).toInt) ∧
    IdsIncrease sparseBoard.store.inner.messages ∧
    ∃ ms, (Board.page 3 1 sparseBoard).answer = .ok ms ∧
      Page.IsOf sparseBoard.store.inner.messages 3 1 ms ∧
      (sparseBoard.store.inner.messages.length / (1 : Int64).toInt < (3 : Int64).toInt →
        ∀ page' : Int64,
          sparseBoard.store.inner.messages.length / (1 : Int64).toInt < page'.toInt →
          (Board.page page' 1 sparseBoard).answer = .ok ms) ∧
      ((1 : Int64).toInt < sparseBoard.store.inner.messages.length →
        (Board.page 3 1 sparseBoard.uncached).answer = .ok ms) :=
  ⟨⟨LruCache.isEmpty_new 1000, fun method _ => serves_sparseBoard method, hasRoom_sparseBoard,
      by decide, by decide⟩,
    page_of_run (LruCache.isEmpty_new 1000) true sparseMoves rfl
      (fun method _ => serves_sparseBoard method) hasRoom_sparseBoard (by decide) (by decide)⟩

end History

end Guestbook
