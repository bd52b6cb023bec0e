import Guestbook.Cache.Map
import Guestbook.Proofs.Board.LogView
import Guestbook.Proofs.Store.Ranges

/-!
# Messages in order of time

A full read comes in store order or in order of time. The second is a stable sort of the first, so
messages of one time stay as the store has them. A store that only a board writes has its messages
in order of their ids, and then time and id together order them strictly.

## Main definitions
- `Message.SortedByTime`: a list of messages in ascending order of time, ties as they were
- `Message.Precedes`: the order of time, and of ids at one time
- `Board.SortsByTime`: the two full reads of a board

## Main statements
- `Message.SortedByTime.precedes`: messages in order of ids, sorted by time
- `Board.sortsByTime_of_answer`: one full read tells the other
- `History.sortsByTime_of_run`: every content of a store, and every run of a board
-/

namespace Guestbook

/-! ## Order of time -/

namespace Message

variable {ms sorted : List Message}

/-- `sorted` has the messages of `ms` in ascending order of time; messages of one time are in the
order they have in `ms`. -/
structure SortedByTime (ms sorted : List Message) : Prop where
  perm : sorted.Perm ms
  ascending : sorted.Pairwise fun a b => a.timestamp ≤ b.timestamp
  ties : ∀ time, sorted.filter (·.timestamp = time) = ms.filter (·.timestamp = time)

theorem sortedByTime_sortByTimestamp (ms : List Message) :
    SortedByTime ms (sortByTimestamp ms) where
  perm := sortByTimestamp_perm ms
  ascending := pairwise_sortByTimestamp ms
  ties time := filter_timestamp_sortByTimestamp time ms

/-- `a` has the earlier time, or the lower id at the same time. -/
def Precedes (a b : Message) : Prop :=
  a.timestamp < b.timestamp ∨ a.timestamp = b.timestamp ∧ a.id < b.id

/-- Messages in order of their ids keep it at each time, so time and id order them strictly. -/
theorem SortedByTime.precedes (h : SortedByTime ms sorted) (hids : IdsIncrease ms) :
    sorted.Pairwise Precedes := by
  rw [List.pairwise_iff_forall_sublist]
  intro a b hab
  rcases Int64.lt_or_eq_of_le (List.pairwise_iff_forall_sublist.mp h.ascending hab)
    with hlt | htie
  · exact .inl hlt
  · refine .inr ⟨htie, ?_⟩
    -- The two are among the messages of their time, which are in the order of `ms`.
    have hsub : [a, b].Sublist (sorted.filter (·.timestamp = b.timestamp)) := by
      have hfilter := hab.filter (·.timestamp = b.timestamp)
      rwa [List.filter_eq_self.mpr (by simp [htie])] at hfilter
    rw [h.ties] at hsub
    exact List.pairwise_iff_forall_sublist.mp hids (hsub.trans List.filter_sublist)

end Message

/-! ## The two full reads -/

namespace Board

section AnyStore

variable {σ γ : Type} [Store σ]

/-- A board answers `ms` to a full read and `sorted` to one by time. -/
structure SortsByTime (b : Board σ γ) (ms sorted : List Message) : Prop where
  plain : (all false b).answer = .ok ms
  byTime : (all true b).answer = .ok sorted
  stable : Message.SortedByTime ms sorted
  /-- There is nothing left to sort. -/
  again : Message.sortByTimestamp sorted = sorted

/-- A full read by time sorts what a full read answers. -/
theorem answer_all_true (b : Board σ γ) :
    (all true b).answer = (all false b).answer.map Message.sortByTimestamp := by
  have hsort : (all true : Action (Board σ γ) _)
      = all false >>= fun ms => pure (Message.sortByTimestamp ms) := by
    simp only [all, bind_assoc, pure_bind, Bool.false_eq_true, if_true, if_false]
  rw [hsort, Action.answer_bind_pure]

/-- A board that answers a full read answers one by time. -/
theorem sortsByTime_of_answer {b : Board σ γ} {ms : List Message}
    (h : (all false b).answer = .ok ms) : b.SortsByTime ms (Message.sortByTimestamp ms) where
  plain := h
  byTime := by
    rw [answer_all_true, h]
    rfl
  stable := Message.sortedByTime_sortByTimestamp ms
  again := Message.sortByTimestamp_of_pairwise (Message.pairwise_sortByTimestamp ms)

end AnyStore

variable {γ : Type}

/-- A full read answers the messages of all records, those that lack a bin included. -/
theorem answer_all_false {b : Board MemoryStore γ} (hidle : b.store.gate.connecting = false)
    (hreachable : b.store.reachable = true) (hworks : b.store.failing = false) :
    (all false b).answer = .ok b.store.messages := by
  have hscan : (atStore Store.scanAll b : Outcome (Board MemoryStore γ) _).answer
      = .ok b.store.records.values := MemoryStore.answer_scanAll hidle hreachable hworks
  exact (Action.bind_of_ok hscan).1

end Board

/-! ## Runs -/

namespace History

/-- A full read by time is the stable sort by time of the full read, whatever the store holds: every
content can be planted, and whatever happened to a store, it is so while the store can be reached
and does not fail. After a run of a board, time and id order the sorted messages strictly. -/
theorem sortsByTime_of_run {γ : Type} [Cache γ] [LawfulCache γ] :
    (∀ records : SortedMap Int64 Record, ∃ steps,
      ((StoreHistory.opened true).play steps).store = { records }) ∧
    (∀ reachable steps (b : Board MemoryStore γ),
      b.store = ((StoreHistory.opened reachable).play steps).store →
      b.store.reachable = true → b.store.failing = false →
      ∃ sorted, b.SortsByTime b.store.messages sorted) ∧
    ∀ reachable (cache : γ) moves, LawfulCache.IsEmpty cache →
      ((opened reachable cache).play moves).board.store.Serves .scanAll →
      ∃ sorted, ((opened reachable cache).play moves).board.SortsByTime
        ((opened reachable cache).play moves).log sorted ∧ sorted.Pairwise Message.Precedes := by
  refine ⟨fun records => ⟨_, StoreHistory.play_planting records⟩, ?_, ?_⟩
  · intro reachable steps b hstore hreachable hworks
    have hidle : b.store.gate.connecting = false := by
      rw [hstore]
      exact StoreHistory.idle_play (h := .opened reachable) rfl steps
    exact ⟨_, Board.sortsByTime_of_answer (Board.answer_all_false hidle hreachable hworks)⟩
  · intro reachable cache moves hcache hserves
    obtain ⟨issued, hkeeps⟩ := keeps_run hcache reachable moves
    have hsorts := Board.sortsByTime_of_answer (hkeeps.showsLog.all hserves)
    exact ⟨_, hsorts, hsorts.stable.precedes hkeeps.store.idsIncrease⟩

/-- Records of the greatest and the least time and of times that repeat; two have no time that can
be read, which counts as zero. -/
def strayTimes : SortedMap Int64 Record :=
  let timed (id timestamp : Int64) (text : String) : Record := .ofMessage { id, text, timestamp }
  .ofList [(1, timed 1 Int64.maxValue "last"), (2, timed 9 0 "zero"),
    (3, .ofList [(Bin.message, .str "timeless")]), (4, timed 3 (-5) "early"),
    (5, .ofList [(Bin.message, .str "mistimed"), (Bin.timestamp, .str "-9")]),
    (6, timed 2 (-5) "early too"), (7, timed 7 Int64.minValue "first")]

/-- A board over planted stray times. -/
def strayBoard : Board MemoryStore MapCache := { store := { records := strayTimes }, cache := {} }

/-- Posts of three times, the first and the last of one. -/
def tiedMoves : List (Move MapCache) :=
  [.request (.post { author := "a", text := "1", timestamp := 30 }),
    .request (.post { author := "b", text := "2", timestamp := -4 }),
    .request (.post { author := "c", text := "3", timestamp := 10 }),
    .request (.post { author := "d", text := "4", timestamp := 30 })]

/-- The stray times are read in order, with those that count as zero as they lie in the store; the
posts of one time stay in the order of their ids. -/
theorem sortsByTime_of_run_stray :
    (∃ sorted, strayBoard.SortsByTime strayBoard.store.messages sorted ∧
      sorted.map (·.text)
        = ["first", "early", "early too", "zero", "timeless", "mistimed", "last"]) ∧
    ∃ sorted, ((opened true ({} : MapCache)).play tiedMoves).board.SortsByTime
        ((opened true ({} : MapCache)).play tiedMoves).log sorted ∧
      sorted.Pairwise Message.Precedes ∧ sorted.map (·.id) = [2, 3, 1, 4] := by
  refine ⟨?_, ?_⟩
  · obtain ⟨sorted, hsorts⟩ := sortsByTime_of_run.2.1 true (StoreHistory.planting strayTimes)
      strayBoard (StoreHistory.play_planting strayTimes).symm rfl rfl
    refine ⟨sorted, hsorts, ?_⟩
    -- What is sorted are the messages by key.
    have hread : (Board.all true strayBoard).answer = .ok (Message.sortByTimestamp
        [{ id := 1, text := "last", timestamp := Int64.maxValue }, { id := 9, text := "zero" },
          { text := "timeless" }, { id := 3, text := "early", timestamp := -5 },
          { text := "mistimed" }, { id := 2, text := "early too", timestamp := -5 },
          { id := 7, text := "first", timestamp := Int64.minValue }]) := rfl
    obtain rfl := Except.ok.inj (hsorts.byTime.symm.trans hread)
    simp [Message.sortByTimestamp, List.mergeSort, Int64.le_iff_toInt_le, Int64.toInt_maxValue]
  · obtain ⟨sorted, hsorts, hprecedes⟩ := sortsByTime_of_run.2.2 true ({} : MapCache) tiedMoves
      MapCache.isEmpty_new (.of_no_mishaps (by decide +kernel) (by decide +kernel)
        (by decide +kernel) _)
    refine ⟨sorted, hsorts, hprecedes, ?_⟩
    have hlog : ((opened true ({} : MapCache)).play tiedMoves).log
        = [{ id := 1, author := "a", text := "1", timestamp := 30 },
          { id := 2, author := "b", text := "2", timestamp := -4 },
          { id := 3, author := "c", text := "3", timestamp := 10 },
          { id := 4, author := "d", text := "4", timestamp := 30 }] := by decide +kernel
    have hread := hsorts.byTime
    rw [Board.answer_all_true, hsorts.plain, hlog] at hread
    obtain rfl := Except.ok.inj hread
    simp [Message.sortByTimestamp, List.mergeSort]

end History

end Guestbook
