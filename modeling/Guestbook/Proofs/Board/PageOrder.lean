import Guestbook.Proofs.Board.Run

/-!
# The order of a page

A page is in id order, unless the whole board fits on it and the full list stands in the cache in
another order. That takes a read of the full list by timestamp, since a page that holds every
message is answered from the entry that such a read made.

## Main definitions
- `Board.ListedByTime`: the full list is in the cache and is not in id order

## Main statements
- `idsIncrease_page_iff`: when a page is in id order
- `page_not_idsIncrease`: a page that is not
-/

namespace Guestbook

open Message (IdsIncrease)

/-! ## Sorting by timestamp -/

/-- A sort by timestamp leaves the ids in order only if it changes nothing. -/
theorem Message.idsIncrease_sortByTimestamp_iff {ms : List Message} (h : IdsIncrease ms) :
    IdsIncrease (sortByTimestamp ms) ↔ sortByTimestamp ms = ms := by
  constructor
  · -- There is only one way to put different ids in order.
    intro hsorted
    refine (sortByTimestamp_perm ms).eq_of_pairwise ?_ hsorted h
    intro a b _ _ hlt hgt
    rw [Int64.lt_iff_toInt_lt] at hlt hgt
    omega
  · intro heq
    rw [heq]
    exact h

namespace Board

variable {γ : Type} [Cache γ] [LawfulCache γ] {b : Board (ObservedStore MemoryStore) γ}
  {log : List Message} {issued : Int} {timed : Bool}

/-- The cache answers the full list, and not in the order of the store. -/
def ListedByTime (b : Board (ObservedStore MemoryStore) γ) : Prop :=
  ∃ bytes, b.found Page.allMessagesKey = .ok (some bytes) ∧
    Json.decodeMessages bytes ≠ .ok b.store.inner.messages

omit [LawfulCache γ] in
/-- A page that does not hold every message is in id order. -/
theorem Shows.idsIncrease_of_part {page size : Int64} {ms : List Message}
    (hshows : b.Shows timed log page size ms) (hlog : IdsIncrease log)
    (hsize : size.toInt < log.length) : IdsIncrease ms := by
  obtain ⟨-, rfl⟩ := hshows.part hsize
  exact hlog.sublist (Page.contents_sublist log page size)

/-- A page that holds every message is in id order unless the cache has the full list otherwise. -/
theorem Shows.idsIncrease_iff_of_whole {page size : Int64} {ms : List Message}
    (hshows : b.Shows timed log page size ms) (hkeeps : Keeps b timed log issued)
    (hsize : (log.length : Int) ≤ size.toInt) : IdsIncrease ms ↔ ¬ b.ListedByTime := by
  have hlog := hkeeps.store.idsIncrease
  obtain ⟨hcurrent, hserves⟩ := hshows.whole hsize
  rw [ListedByTime, hkeeps.store.messages]
  rcases hserves with ⟨hnone, rfl⟩ | ⟨bytes, hsome, hdecode⟩
  · -- The cache has no full list, so the page is read from the store.
    apply iff_of_true hlog
    rintro ⟨bytes, hsome, -⟩
    rw [hnone] at hsome
    exact nomatch hsome
  · -- The page is the list that the entry decodes to, so the order of the entry decides.
    have hlisted : (∃ bytes, b.found Page.allMessagesKey = .ok (some bytes) ∧
        Json.decodeMessages bytes ≠ .ok log) ↔ ms ≠ log := by
      constructor
      · rintro ⟨bytes', hsome', hdecode'⟩ rfl
        obtain rfl := Option.some.inj (Except.ok.inj (hsome.symm.trans hsome'))
        exact hdecode' hdecode
      · intro hne
        refine ⟨bytes, hsome, fun hdecode' => hne ?_⟩
        exact Except.ok.inj (hdecode.symm.trans hdecode')
    rw [hlisted, Classical.not_not]
    rcases current_allMessagesKey.mp hcurrent with rfl | ⟨-, rfl⟩
    · exact iff_of_true hlog rfl
    · exact Message.idsIncrease_sortByTimestamp_iff hlog

end Board

namespace History

/-! ## A full list read by timestamp -/

/-- Two posts, the later one of an earlier time, and then the full list read by timestamp. -/
def timedMoves : List (Move MapCache) :=
  [.request (.post { author := "a", text := "1", timestamp := 30 }),
    .request (.post { author := "b", text := "2", timestamp := 10 }),
    .request (.allCached true)]

/-- The two posts by timestamp. -/
def timedList : List Message :=
  [{ id := 2, author := "b", text := "2", timestamp := 10 },
    { id := 1, author := "a", text := "1", timestamp := 30 }]

/-- The full list stands in the cache by timestamp. -/
private theorem found_timed :
    ((opened true ({} : MapCache)).play timedMoves).board.found Page.allMessagesKey
      = .ok (some (Json.encodeMessages timedList)) := by
  have hsort : Message.sortByTimestamp
      [{ id := 1, author := "a", text := "1", timestamp := 30 },
        { id := 2, author := "b", text := "2", timestamp := 10 }] = timedList := by
    simp [Message.sortByTimestamp, List.mergeSort, timedList]
  rw [← hsort]
  rfl

private theorem hasRoom_timed : ((opened true ({} : MapCache)).play timedMoves).board.HasRoom := by
  rw [Board.HasRoom]
  decide +kernel

/-- A page that holds both posts shows the entry of the full list. -/
private theorem answer_page_timed :
    (Board.page 1 5 ((opened true ({} : MapCache)).play timedMoves).board).answer
      = .ok timedList := by
  obtain ⟨issued, hkeeps⟩ := keeps_run MapCache.isEmpty_new true timedMoves
  have hvalid : 1 ≤ (1 : Int64).toInt ∧ 1 ≤ (5 : Int64).toInt := by decide
  have hwhole : (((opened true ({} : MapCache)).play timedMoves).log.length : Int)
      ≤ (5 : Int64).toInt := by
    show (2 : Int) ≤ _
    decide
  obtain ⟨ms, hanswer, hshows⟩ := Board.answer_page hkeeps hasRoom_timed
    (fun method _ => .of_no_mishaps rfl rfl rfl method) hvalid
  rcases (hshows.whole hwhole).2 with ⟨hnone, -⟩ | ⟨bytes, hsome, hdecode⟩
  · exact nomatch found_timed.symm.trans hnone
  · obtain rfl := Option.some.inj (Except.ok.inj (found_timed.symm.trans hsome))
    rw [Json.decodeMessages_encodeMessages] at hdecode
    rw [hanswer, Except.ok.inj hdecode]

variable {γ : Type} [Cache γ] [LawfulCache γ]

/-- A page is in id order exactly if not every message fits on it or the cache does not answer the
full list in another order. No run that never reads the full list by timestamp comes to that. -/
theorem idsIncrease_page_iff {cache : γ} (hcache : LawfulCache.IsEmpty cache) (reachable : Bool)
    (moves : List (Move γ)) {b : Board (ObservedStore MemoryStore) γ}
    (hb : b = ((opened reachable cache).play moves).board) {page size : Int64} {ms : List Message}
    (hms : (Board.page page size b).answer = .ok ms) :
    (IdsIncrease ms ↔
      ¬ ((b.store.inner.messages.length : Int) ≤ size.toInt ∧ b.ListedByTime)) ∧
    (size.toInt < b.store.inner.messages.length → IdsIncrease ms) ∧
    ((∀ m ∈ moves, m.readsByTime = false) → IdsIncrease ms) := by
  subst hb
  obtain ⟨issued, hkeeps⟩ := keeps_run hcache reachable moves
  have hshows := ((Board.satisfies_page hkeeps page size).of_ok hms).1
  have hlog := hkeeps.store.idsIncrease
  rw [hkeeps.store.messages]
  refine ⟨?_, hshows.idsIncrease_of_part hlog, ?_⟩
  · by_cases hsize : ((((opened reachable cache).play moves).log.length : Nat) : Int) ≤ size.toInt
    · rw [hshows.idsIncrease_iff_of_whole hkeeps hsize]
      exact not_congr (iff_and_self.mpr fun _ => hsize)
    · refine iff_of_true (hshows.idsIncrease_of_part hlog (Int.not_le.mp hsize)) ?_
      exact fun h => hsize h.1
  · -- Without a read by timestamp, the same run keeps its log with no timed entry.
    intro huntimed
    have hnever : ∀ m ∈ moves, m.readsByTime = true → false = true := by
      intro m hm htimed
      rwa [huntimed m hm] at htimed
    obtain ⟨issued', hkeeps'⟩ := keeps_play (keeps_opened false hcache reachable) moves hnever
    have hshows' := ((Board.satisfies_page hkeeps' page size).of_ok hms).1
    by_cases hsize : ((((opened reachable cache).play moves).log.length : Nat) : Int) ≤ size.toInt
    · rcases current_allMessagesKey.mp (hshows'.whole hsize).1 with rfl | ⟨htimed, -⟩
      · exact hlog
      · exact nomatch htimed
    · exact hshows'.idsIncrease_of_part hlog (Int.not_le.mp hsize)

/-- After the full list was read by timestamp, the page that holds both posts is not in id order. -/
theorem idsIncrease_page_iff_timed :
    LawfulCache.IsEmpty ({} : MapCache) ∧
      (Board.page 1 5 ((opened true ({} : MapCache)).play timedMoves).board).answer
        = .ok timedList ∧
      ((IdsIncrease timedList ↔ ¬ ((((opened true ({} : MapCache)).play
          timedMoves).board.store.inner.messages.length : Int) ≤ (5 : Int64).toInt ∧
            ((opened true ({} : MapCache)).play timedMoves).board.ListedByTime)) ∧
        ((5 : Int64).toInt < ((opened true ({} : MapCache)).play
          timedMoves).board.store.inner.messages.length → IdsIncrease timedList) ∧
        ((∀ m ∈ timedMoves, m.readsByTime = false) → IdsIncrease timedList)) :=
  ⟨MapCache.isEmpty_new, answer_page_timed,
    idsIncrease_page_iff MapCache.isEmpty_new true timedMoves rfl answer_page_timed⟩

/-- Not every page is in id order. -/
theorem page_not_idsIncrease :
    ¬ ∀ (moves : List (Move MapCache)) (page size : Int64) (ms : List Message),
      1 ≤ page.toInt → 1 ≤ size.toInt →
      (Board.page page size ((opened true ({} : MapCache)).play moves).board).answer = .ok ms →
      IdsIncrease ms := by
  intro h
  have hsorted := h timedMoves 1 5 timedList (by decide) (by decide) answer_page_timed
  exact absurd hsorted (by decide)

end History

end Guestbook
