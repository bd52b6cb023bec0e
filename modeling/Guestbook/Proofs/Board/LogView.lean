import Guestbook.Proofs.Board.Run

/-!
# The board as a log

Seen from outside, a board is the log that its answers tell of. While the store serves an operation,
its answer is one about the log: everything, how many there are, a range of ids, or whether an id is
among them.

## Main definitions
- `Board.ShowsLog`: the answers of a board are those of a log

## Main statements
- `showsLog_of_run`: every run leaves a board that shows its log
-/

namespace Guestbook

namespace Board

variable {γ : Type} [Cache γ] [LawfulCache γ]

/-- The answers of a board are those of a log, for every operation that the store serves. -/
structure ShowsLog (b : Board (ObservedStore MemoryStore) γ) (log : List Message) : Prop where
  inOrder : Message.IdsIncrease log
  all : b.store.Serves .scanAll → (Board.all false b).answer = .ok log
  count : b.store.Serves .countAll → (Board.count b).answer = .ok log.length
  range : b.store.Serves .queryByRange → ∀ low high, (Board.range low high b).answer
    = .ok (log.filter fun m => low ≤ m.id && m.id ≤ high)
  emptyRange : b.store.Serves .queryByRange → ∀ low high, high < low →
    (Board.range low high b).answer = .ok []
  delete : b.store.Serves .delete → ∀ id, (Board.delete id b).answer
    = .ok (decide (id ∈ log.map (·.id)))

variable {b : Board (ObservedStore MemoryStore) γ} {log : List Message} {issued : Int}
  {timed : Bool}

/-- A board that keeps a log shows it. -/
theorem Keeps.showsLog (h : Keeps b timed log issued) : ShowsLog b log := by
  -- An operation that is served cannot stop, so its answer is the one specified.
  have hrange : b.store.Serves .queryByRange → ∀ low high, (Board.range low high b).answer
      = .ok (log.filter fun m => low ≤ m.id && m.id ≤ high) := by
    intro hserves low high
    obtain ⟨ms, hanswer, hms, -⟩ := (satisfies_range h.settled low high).answers
      fun _ _ hstop => hstop.1.not_serves hserves
    rw [hanswer, hms, h.store.messagesIn]
  refine ⟨h.store.idsIncrease, ?_, ?_, hrange, ?_, ?_⟩
  · intro hserves
    obtain ⟨ms, hanswer, hms, -⟩ := (satisfies_all h.settled false).answers
      fun _ _ hstop => hstop.1.not_serves hserves
    rw [hanswer, hms, h.store.messages]
    rfl
  · intro hserves
    obtain ⟨n, hanswer, hn, -⟩ := (satisfies_count h.settled).answers
      fun _ _ hstop => hstop.1.not_serves hserves
    rw [hanswer, hn, h.store.size]
  · -- No id lies in an empty range.
    intro hserves low high hempty
    rw [hrange hserves low high, List.filter_eq_nil_iff.mpr]
    intro m _ hm
    rw [Int64.lt_iff_toInt_lt] at hempty
    simp only [Bool.and_eq_true, decide_eq_true_eq, Int64.le_iff_toInt_le] at hm
    omega
  · intro hserves id
    obtain ⟨existed, hanswer, hexisted, -⟩ := (satisfies_delete h id).answers
      fun _ _ hstop => hstop.1.not_serves hserves
    rw [hanswer, hexisted]

end Board

namespace History

variable {γ : Type} [Cache γ] [LawfulCache γ]

/-- Every run of a new board leaves a board that shows the log its answers told of. -/
theorem showsLog_of_run {cache : γ} (hcache : LawfulCache.IsEmpty cache) (reachable : Bool)
    (moves : List (Move γ)) :
    ((opened reachable cache).play moves).board.ShowsLog
      ((opened reachable cache).play moves).log := by
  obtain ⟨issued, hkeeps⟩ := keeps_run hcache reachable moves
  exact hkeeps.showsLog

/-- Posts with ids of the caller's, one that the store refuses, and deletes of an id that was
issued, of one that was not, and during an outage. -/
def busyMoves : List (Move MapCache) :=
  [.request (.post { id := 7, author := "a", text := "1", timestamp := 30 }),
    .mishap .put .notConnected 0, .request (.post { author := "b", text := "2" }),
    .request (.post { id := 1, author := "c", text := "3", timestamp := 10 }),
    .request (.delete 1), .request (.delete 9), .setReachable false, .request (.delete 3),
    .setReachable true]

/-- What remains is the third post, under the third id. -/
theorem showsLog_of_run_busy :
    LawfulCache.IsEmpty ({} : MapCache) ∧
      ((opened true ({} : MapCache)).play busyMoves).log
        = [{ id := 3, author := "c", text := "3", timestamp := 10 }] ∧
      ((opened true ({} : MapCache)).play busyMoves).board.ShowsLog
        ((opened true ({} : MapCache)).play busyMoves).log :=
  ⟨MapCache.isEmpty_new, by decide +kernel, showsLog_of_run MapCache.isEmpty_new true busyMoves⟩

end History

end Guestbook
