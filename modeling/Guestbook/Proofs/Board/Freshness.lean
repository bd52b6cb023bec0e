import Guestbook.Proofs.Board.Run
import Guestbook.Proofs.Board.Uncached

/-!
# The cache is fresh

Whatever a run does, what the cache holds afterwards is made from the messages that the store holds
then: the full list in one of two orders, and pages as they would be read without a cache. So no
request finds an entry that it cannot read, and no read is answered with older messages.

## Main definitions
- `Board.Fresh`: what the cache of a board holds and answers is made from the messages stored

## Main statements
- `fresh_of_run`: every run leaves a fresh cache
-/

namespace Guestbook

namespace Board

variable {γ : Type} [Cache γ] [LawfulCache γ]

/-- The cache of a board is fresh: its entries and answers are made from the messages that the store
holds now. -/
structure Fresh (b : Board (ObservedStore MemoryStore) γ) : Prop where
  /-- The messages stored are in id order. -/
  inOrder : Message.IdsIncrease b.store.inner.messages
  /-- The full list is cached in id order or sorted by timestamp. -/
  fullList : ∀ bytes, (Page.allMessagesKey, bytes) ∈ LawfulCache.entries b.cache →
    Json.decodeMessages bytes = .ok b.store.inner.messages ∨
      Json.decodeMessages bytes = .ok (Message.sortByTimestamp b.store.inner.messages)
  /-- A page is cached as it would be read from the store. -/
  pages : ∀ page size bytes, (Page.key page size, bytes) ∈ LawfulCache.entries b.cache →
    ∃ ms, Json.decodeMessages bytes = .ok ms ∧ (Board.page page size b.uncached).answer = .ok ms
  /-- No request finds an entry that it cannot read. -/
  readable : ∀ (r : BoardRequest) (key reason : String),
    (r.serve b).answer ≠ .error (.error (.unreadableEntry key reason))
  /-- The full list is read as it would be cached. -/
  readsFullList : ∀ byTimestamp ms, (allCached byTimestamp b).answer = .ok ms →
    ms = b.store.inner.messages ∨ ms = Message.sortByTimestamp b.store.inner.messages
  /-- A page that holds every message is read as the full list, any other as from the store. -/
  readsPages : ∀ page size ms, (Board.page page size b).answer = .ok ms →
    if (b.store.inner.messages.length : Int) ≤ size.toInt then
      ms = b.store.inner.messages ∨ ms = Message.sortByTimestamp b.store.inner.messages
    else (Board.page page size b.uncached).answer = .ok ms

variable {b : Board (ObservedStore MemoryStore) γ} {log : List Message} {issued : Int}

/-- A board that keeps a log has a fresh cache. -/
theorem Keeps.fresh (h : Keeps b true log issued) : Fresh b := by
  have hmessages := h.store.messages
  have hcurrent : ∀ {ms}, Current true log Page.allMessagesKey ms →
      ms = b.store.inner.messages ∨ ms = Message.sortByTimestamp b.store.inner.messages := by
    intro ms hms
    rw [hmessages]
    exact (current_allMessagesKey.mp hms).imp_right And.right
  refine ⟨hmessages ▸ h.store.idsIncrease, ?_, ?_, ?_, ?_, ?_⟩
  · intro bytes hentry
    obtain ⟨ms, hdecode, hms⟩ := h.cache.decodes _ _ hentry
    rw [hdecode]
    exact (hcurrent hms).imp (congrArg _) (congrArg _)
  · -- The cached page was read from the same log.
    intro page size bytes hentry
    obtain ⟨ms, hdecode, hms⟩ := h.cache.decodes _ _ hentry
    obtain ⟨hpage, rfl⟩ := current_key.mp hms
    exact ⟨_, hdecode, page_uncached h hpage⟩
  · -- An entry that cannot be read would be a failure of the cache.
    intro r key reason hanswer
    have hserve := satisfies_serve h r fun _ => rfl
    exact (hserve.of_error hanswer).1 _ rfl rfl
  · intro byTimestamp ms hanswer
    exact hcurrent ((satisfies_fullList h byTimestamp fun _ => rfl).of_ok hanswer).1.1
  · intro page size ms hanswer
    have hshows := ((satisfies_page h page size).of_ok hanswer).1
    split
    · next hwhole => exact hcurrent (hshows.whole (hmessages ▸ hwhole)).1
    · next hpart =>
      obtain ⟨hpage, rfl⟩ := hshows.part (Int.not_le.mp (hmessages ▸ hpart))
      exact page_uncached h hpage

end Board

namespace History

variable {γ : Type} [Cache γ] [LawfulCache γ]

/-- Every run of a new board with an empty cache leaves a fresh cache. -/
theorem fresh_of_run {cache : γ} (hcache : LawfulCache.IsEmpty cache) (reachable : Bool)
    (moves : List (Move γ)) : Board.Fresh ((opened reachable cache).play moves).board := by
  obtain ⟨issued, hkeeps⟩ := keeps_run hcache reachable moves
  exact hkeeps.fresh

/-- A first attempt to connect that fails, posts, failed ones among them, reads through the cache, a
search whose second query fails, and then an outage while the cache declines every entry. -/
def troubledMoves : List (Move (RecordingCache CacheBackend)) :=
  [.connectFirst, .setReachable true,
    .request (.post { author := "a", text := "1", timestamp := 30 }),
    .mishap .put (.refused "disk full") 0, .request (.post { author := "b", text := "2" }),
    .mishap .put .notConnected 1, .request (.post { author := "c", text := "3", timestamp := 10 }),
    .request (.post { author := "d", text := "4" }), .request (.allCached true),
    .request (.page 1 1), .mishap .queryByRange .notConnected 1, .request (.page 3 1),
    .tune (RecordingCache.tuning true), .request (.page 2 1), .setReachable false,
    .request (.page 3 1)]

/-- Two entries outlast the troubles, and they are fresh. -/
theorem fresh_of_run_troubled :
    LawfulCache.IsEmpty ({ inner := .map {} } : RecordingCache CacheBackend) ∧
      (LawfulCache.entries ((opened false { inner := .map {} }).play
        troubledMoves).board.cache).map (·.1) = [Page.allMessagesKey, Page.key 1 1] ∧
      Board.Fresh ((opened false { inner := .map {} }).play troubledMoves).board :=
  ⟨RecordingCache.isEmpty_of_inner ⟨trivial, rfl⟩, by decide +kernel,
    fresh_of_run (RecordingCache.isEmpty_of_inner ⟨trivial, rfl⟩) false troubledMoves⟩

end History

end Guestbook
