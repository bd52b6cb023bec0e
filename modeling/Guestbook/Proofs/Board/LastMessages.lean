import Guestbook.Cache.Map
import Guestbook.Proofs.Board.Reads
import Guestbook.Proofs.Gate.Run
import Guestbook.Proofs.Store.Frame

/-!
# The last messages at once

The search for the last messages reads ever wider ranges below the counter, as many as the gaps
between the ids make it. A board that read all ids from zero up to the counter with one query, and
then sorted them and kept the end, would answer the same. This holds on a store with any records,
whether their ids repeat, are negative, lie above the counter or are no integers, and with any
counter.

## Main definitions
- `Message.StablySorted`: a list of messages in ascending order of their ids, ties as they were
- `MemoryStore.LastById`: the last messages of a store up to its counter
- `Board.lastMessagesAtOnce`: the last messages read with one query
- `Board.SearchAgrees`: the search answers what the single query does

## Main statements
- `Message.stablySorted_sortById`: the sort by id is stable
- `MemoryStore.satisfies_counter_connected`: a counter that was read leaves the store connected
- `Board.searchAgrees`: every search
-/

namespace Guestbook

/-! ## Stable order -/

/-- `sorted` has the messages of `ms` in ascending order of their ids; messages that share an id are
in the order they have in `ms`. -/
structure Message.StablySorted (ms sorted : List Message) : Prop where
  ascending : sorted.Pairwise fun a b => a.id ≤ b.id
  perm : sorted.Perm ms
  ties : ∀ id, sorted.filter (·.id = id) = ms.filter (·.id = id)

theorem Message.stablySorted_sortById (ms : List Message) : StablySorted ms (sortById ms) where
  ascending := pairwise_sortById ms
  perm := List.mergeSort_perm ms _
  ties id := filter_id_sortById id ms

/-! ## A store that is connected -/

namespace Gate

variable {κ : Type} {live : κ → Bool} {dialled : Except BoardError κ} {g : Gate κ}

/-- A caller at a connected gate is served, whoever has the turn, and nothing changes. -/
theorem satisfies_check_of_connected (hconnected : g.isConnected live = true) :
    (check live dialled g).Satisfies (fun _ g' => g' = g) fun _ _ => False := by
  obtain ⟨conn, hheld, hlive⟩ := isConnected_iff.mp hconnected
  unfold check
  rw [Action.satisfies_bind, arrive_of_live hheld hlive]
  exact rfl

/-- A caller who is let through leaves the gate connected, if what is dialled is live. -/
theorem satisfies_check_connected (hdial : ∀ conn, dialled = .ok conn → live conn = true) :
    (check live dialled g).Satisfies (fun _ g' => g'.isConnected live = true) fun _ _ => True := by
  cases hconnected : g.isConnected live with
  | true =>
    apply (satisfies_check_of_connected hconnected).imp
    · intro conn g' hg'
      rw [hg', hconnected]
    · exact fun _ _ _ => trivial
  | false =>
    unfold check
    rw [Action.satisfies_bind, arrive_of_not_connected hconnected]
    unfold takeTurn
    split
    · -- Another caller has the turn.
      trivial
    · cases dialled with
      | ok conn => exact isConnected_iff.mpr ⟨conn, rfl, hdial conn rfl⟩
      | error cause => trivial

end Gate

namespace MemoryStore

variable {s t : MemoryStore} {α : Type}

/-- The counter record holds the value `w`. -/
def CountsTo (s : MemoryStore) (w : Int64) : Prop :=
  ∃ r, s.counterRecord = some r ∧ r.find? Bin.count = some (.int w)

/-- `ms` are the last `size` messages with an id from zero up to the counter, or all of them if
there are fewer, in the stable order of their ids. -/
def LastById (s : MemoryStore) (size : Int64) (ms : List Message) : Prop :=
  ∃ lastId sorted, s.CountsTo lastId ∧ Message.StablySorted (s.messagesIn 0 lastId) sorted ∧
    ms <:+ sorted ∧ ms.length = min size.toInt.toNat (s.messagesIn 0 lastId).length

/-- Passing the gate leaves the store connected, with everything else as it was. -/
theorem satisfies_connection_connected :
    (connection s).Satisfies
      (fun _ t => t.isConnected = true ∧ ∃ gate, t = { s with gate }) fun _ _ => True := by
  have hdial : ∀ conn, s.dial = .ok conn → MemoryConnection.isLive s.reachable conn = true := by
    intro conn hconn
    unfold dial at hconn
    split at hconn
    · next hreachable =>
      obtain rfl := Except.ok.inj hconn
      rw [hreachable]
      rfl
    · exact nomatch hconn
  unfold connection atGate
  rw [Action.satisfies_on]
  apply (Gate.satisfies_check_connected hdial).imp
  · intro conn gate hgate
    exact ⟨hgate, gate, rfl⟩
  · exact fun _ _ _ => trivial

/-- An operation on a connected store takes place at once. -/
theorem satisfies_connected_of_connected (hconnected : s.isConnected = true)
    {a : Action MemoryStore α} {Q : α → MemoryStore → Prop} {E : Stop → MemoryStore → Prop}
    (ha : (a s).Satisfies Q E) : (connected a s).Satisfies Q E := by
  unfold connected
  rw [Action.satisfies_bind]
  unfold connection atGate
  rw [Action.satisfies_on]
  apply (Gate.satisfies_check_of_connected hconnected).imp
  · intro conn gate hgate
    rw [hgate]
    exact ha
  · exact fun _ _ => False.elim

/-- Reading the counter answers what its record holds and leaves the store connected. -/
theorem satisfies_counter_connected :
    (counter s).Satisfies
      (fun w t => s.CountsTo w ∧ t.isConnected = true ∧ ∃ gate, t = { s with gate })
      fun _ _ => True := by
  unfold counter connected
  rw [Action.satisfies_bind]
  apply satisfies_connection_connected.imp
  · rintro conn t ⟨hconnected, gate, rfl⟩
    rw [Action.satisfies_bind, Action.satisfies_state]
    cases hrecord : s.counterRecord with
    | none => trivial
    | some r =>
      dsimp only
      unfold counterValue
      split
      · next w hfind => exact ⟨⟨r, hrecord, hfind⟩, hconnected, gate, rfl⟩
      · trivial
      · trivial
  · exact fun _ _ _ => trivial

/-- A connected store answers every range query or none, and is left as it is. -/
theorem satisfies_queryByRange_of_connected (hconnected : s.isConnected = true) (index : String)
    (low high : Int64) :
    (queryByRange index low high s).Satisfies
      (fun records t => (s.failing = false ∧ index = Bin.id) ∧
        records = s.records.values.filter (inRange Bin.id low high) ∧ t = s)
      fun _ _ => ¬ (s.failing = false ∧ index = Bin.id) := by
  apply satisfies_connected_of_connected hconnected
  rw [Action.satisfies_bind]
  cases hfailing : s.failing with
  | true =>
    rw [requireWorking, hfailing]
    exact fun h => Bool.noConfusion h.1
  | false =>
    rw [requireWorking, hfailing, Outcome.satisfies_iff_of_ok rfl]
    dsimp only
    split
    · next hother => exact fun h => hother h.2
    · next hindex =>
      obtain rfl : index = Bin.id := Decidable.not_not.mp hindex
      exact ⟨⟨rfl, rfl⟩, rfl, rfl⟩

end MemoryStore

/-! ## The search and the single query -/

namespace Board

/-- The `size` messages with the highest ids, in id order, read with one query of all ids from zero
up to the counter. -/
def lastMessagesAtOnce {σ γ : Type} [Store σ] (size : Int64) :
    Action (Board σ γ) (List Message) := do
  let lastId ← atStore Store.counter
  let ms ← range 0 lastId
  return lastOf size ms

variable {γ : Type} {b : Board MemoryStore γ} {size : Int64} {ms : List Message}

/-- The last messages of the store are a suffix of all of them in stable order. -/
theorem lastById_lastOf {s : MemoryStore} {lastId : Int64} (hcounter : s.CountsTo lastId)
    (size : Int64) : s.LastById size (lastOf size (s.messagesIn 0 lastId)) := by
  refine ⟨lastId, _, hcounter, Message.stablySorted_sortById _, List.drop_suffix _ _, ?_⟩
  rw [lastOf, List.length_drop, Message.length_sortById]
  omega

/-- Whether a board answers its range queries. -/
def AnswersRanges (b : Board MemoryStore γ) : Prop :=
  b.store.failing = false ∧ b.index = Bin.id

/-- A board on a connected store answers every range or none, and is left as it is. -/
theorem satisfies_range_of_connected (hconnected : b.store.isConnected = true) (low high : Int64) :
    (range low high b).Satisfies
      (fun ms c => b.AnswersRanges ∧ ms = b.store.messagesIn low high ∧ c = b)
      fun _ _ => ¬ b.AnswersRanges := by
  unfold range
  rw [Action.satisfies_bind, Action.satisfies_state, Action.satisfies_bind]
  rw [satisfies_atStore]
  apply (MemoryStore.satisfies_queryByRange_of_connected hconnected b.index low high).imp
  · rintro records store ⟨hanswers, rfl, rfl⟩
    exact ⟨hanswers, rfl, rfl⟩
  · exact fun _ _ => id

theorem answer_range_of_connected (hconnected : b.store.isConnected = true)
    (hanswers : b.AnswersRanges) (low high : Int64) :
    (range low high b).answer = .ok (b.store.messagesIn low high) := by
  obtain ⟨ms, hanswer, -, rfl, -⟩ :=
    (satisfies_range_of_connected hconnected low high).answers fun _ _ h => h hanswers
  exact hanswer

/-- On a connected store the search answers the last messages up to `lastId`, if it has an end. -/
theorem satisfies_searchLast_of_connected (hconnected : b.store.isConnected = true)
    (hsize : 1 ≤ size.toInt) (lastId : Int64) :
    (searchLast size lastId size b).Satisfies
      (fun ms _ => b.AnswersRanges ∧ ms = lastOf size (b.store.messagesIn 0 lastId))
      fun why _ => b.AnswersRanges → why = .endless ∧ lastId.toInt = Word.greatest := by
  by_cases hanswers : b.AnswersRanges
  · have hsearch : (searchLast size lastId size b).Satisfies
        (fun ms c => ms = lastOf size (b.store.messagesIn 0 lastId) ∧ c = b)
        fun why _ => why = .endless ∧ lastId.toInt = Word.greatest := by
      refine satisfies_searchLast_of_range (P := (· = b)) (fun low => b.store.messagesIn low lastId)
        (fun low hlow => b.store.messagesIn_eq_filter hlow) ?_ ?_ hsize rfl
      · -- Every range is read from the same store.
        rintro low c rfl
        apply (satisfies_range_of_connected hconnected low lastId).imp
        · exact fun ms d hms => ⟨congrArg _ hms.2.1, hms.2.2⟩
        · exact fun why d hrefused => absurd hanswers hrefused
      · exact fun c hc hgreatest hfew => ⟨rfl, hgreatest⟩
    apply hsearch.imp
    · exact fun ms c hms => ⟨hanswers, hms.1⟩
    · exact fun why c hwhy _ => hwhy
  · -- The first range is refused.
    obtain ⟨low, hlow, -⟩ := searchStart_eq lastId hsize
    unfold searchLast
    rw [hlow, Action.satisfies_bind, Action.satisfies_orFault_ok, Action.satisfies_bind]
    apply (satisfies_range_of_connected hconnected low lastId).imp
    · exact fun ms c hms => absurd hms.1 hanswers
    · exact fun why c hrefused h => absurd h hrefused

/-- What the search answers on a connected store, the single query of all ids answers. -/
private theorem answer_range_of_searchLast (hconnected : b.store.isConnected = true)
    (hsize : 1 ≤ size.toInt) {lastId : Int64}
    (hsearch : (searchLast size lastId size b).answer = .ok ms) :
    (range 0 lastId b).answer.map (lastOf size) = .ok ms ∧
      ms = lastOf size (b.store.messagesIn 0 lastId) := by
  obtain ⟨hanswers, rfl⟩ :=
    (satisfies_searchLast_of_connected hconnected hsize lastId).of_ok hsearch
  rw [answer_range_of_connected hconnected hanswers]
  exact ⟨rfl, rfl⟩

/-- What the single query of all ids answers on a connected store, the search answers if it has an
end. -/
private theorem answer_searchLast_of_range (hconnected : b.store.isConnected = true)
    (hsize : 1 ≤ size.toInt) {lastId : Int64}
    (hplain : (range 0 lastId b).answer.map (lastOf size) = .ok ms) :
    (searchLast size lastId size b).answer = .ok ms ∨
      (searchLast size lastId size b).answer = .error .endless ∧ lastId = Int64.maxValue := by
  have hspec := satisfies_searchLast_of_connected hconnected hsize lastId
  cases hrange : (range 0 lastId b).answer with
  | error why =>
    rw [hrange] at hplain
    exact nomatch hplain
  | ok all =>
    obtain ⟨hanswers, rfl, -⟩ := (satisfies_range_of_connected hconnected 0 lastId).of_ok hrange
    rw [hrange] at hplain
    obtain rfl := Except.ok.inj hplain
    cases hsearch : (searchLast size lastId size b).answer with
    | ok ms =>
      obtain ⟨-, rfl⟩ := hspec.of_ok hsearch
      exact .inl rfl
    | error why =>
      obtain ⟨rfl, hgreatest⟩ := hspec.of_error hsearch hanswers
      exact .inr ⟨rfl, Int64.toInt.inj (hgreatest.trans (by decide))⟩

/-- The search and the single query stop at the counter for the same reason, or both go on from a
board on a connected store, which holds the same messages. -/
private theorem answers_after_counter (b : Board MemoryStore γ) (size : Int64) :
    (∃ why, (lastMessages size b).answer = .error why ∧
      (lastMessagesAtOnce size b).answer = .error why) ∨
    ∃ (lastId : Int64) (c : Board MemoryStore γ), b.store.CountsTo lastId ∧
      c.store.isConnected = true ∧
      c.store.messagesIn 0 lastId = b.store.messagesIn 0 lastId ∧
      (lastMessages size b).answer = (searchLast size lastId size c).answer ∧
      (lastMessagesAtOnce size b).answer = (range 0 lastId c).answer.map (lastOf size) := by
  cases hcounter : (atStore Store.counter b : Outcome (Board MemoryStore γ) Int64).answer with
  | error why =>
    exact .inl ⟨why, (Action.bind_of_error hcounter).1, (Action.bind_of_error hcounter).1⟩
  | ok lastId =>
    obtain ⟨hcountsTo, hconnected, gate, hstore⟩ :=
      (MemoryStore.satisfies_counter_connected (s := b.store)).of_ok hcounter
    refine .inr ⟨lastId, _, hcountsTo, hconnected, ?_, (Action.bind_of_ok hcounter).1,
      (Action.bind_of_ok hcounter).1.trans (Action.answer_bind_pure _ _ _)⟩
    -- The gate is all that reading the counter may change.
    show (MemoryStore.counter b.store).state.messagesIn 0 lastId = _
    rw [hstore]
    rfl

/-- The search for the last `size` messages of a board against the single query. -/
structure SearchAgrees (b : Board MemoryStore γ) (size : Int64) : Prop where
  /-- What the search answers, the single query answers. -/
  atOnce : ∀ ms, (lastMessages size b).answer = .ok ms → (lastMessagesAtOnce size b).answer = .ok ms
  /-- These are the last messages in the stable order of ids. -/
  lastById : ∀ ms, (lastMessages size b).answer = .ok ms → b.store.LastById size ms
  /-- What the single query answers, the search answers; only below the greatest counter it may be
  without end. -/
  answers : ∀ ms, (lastMessagesAtOnce size b).answer = .ok ms →
    (lastMessages size b).answer = .ok ms ∨
      (lastMessages size b).answer = .error .endless ∧ b.store.CountsTo Int64.maxValue

/-- The search for the last messages answers the same as the single query, on every store and
however its gate and its switches stand. -/
theorem searchAgrees (b : Board MemoryStore γ) (hsize : 1 ≤ size.toInt) : b.SearchAgrees size := by
  rcases answers_after_counter b size with ⟨why, hsearch, hplain⟩ |
    ⟨lastId, c, hcountsTo, hconnected, hmessages, hsearch, hplain⟩
  · constructor
    · exact fun ms hms => nomatch hsearch.symm.trans hms
    · exact fun ms hms => nomatch hsearch.symm.trans hms
    · exact fun ms hms => nomatch hplain.symm.trans hms
  · constructor
    · intro ms hms
      rw [hplain]
      exact (answer_range_of_searchLast hconnected hsize (hsearch.symm.trans hms)).1
    · intro ms hms
      rw [(answer_range_of_searchLast hconnected hsize (hsearch.symm.trans hms)).2, hmessages]
      exact lastById_lastOf hcountsTo size
    · intro ms hms
      rw [hsearch]
      apply (answer_searchLast_of_range hconnected hsize (hplain.symm.trans hms)).imp_right
      rintro ⟨hendless, rfl⟩
      exact ⟨hendless, hcountsTo⟩

/-- A board with records that share an id, lie below zero or above the counter, or have no id that
is an integer, and with gaps between the others. -/
def plantedBoard : Board MemoryStore MapCache :=
  let titled (id : Int64) (text : String) : Record := Record.ofMessage { id, text }
  let records : List (Int64 × Record) :=
    [(1, titled 8 "first of two"), (2, titled 1 "lowest"), (3, titled (-7) "negative"),
      (4, titled 8 "second of two"), (5, titled 90 "above"),
      (6, SortedMap.empty.insert Bin.id (.str "8")), (7, SortedMap.empty),
      (8, titled 6 "middle"), (9, titled 4 "low")]
  { store :=
      { records := .ofList records
        counterRecord := some (SortedMap.empty.insert Bin.count (.int 14)) }
    cache := {} }

/-- The search for three messages widens twice, to the ids from three on. The two messages that
share an id come in the order of their keys. -/
theorem searchAgrees_planted :
    1 ≤ (3 : Int64).toInt ∧ plantedBoard.SearchAgrees 3 ∧
      (lastMessages 3 plantedBoard).answer = .ok [{ id := 6, text := "middle" },
        { id := 8, text := "first of two" }, { id := 8, text := "second of two" }] := by
  have hsize : 1 ≤ (3 : Int64).toInt := by decide
  have hagrees : plantedBoard.SearchAgrees 3 := searchAgrees plantedBoard hsize
  refine ⟨hsize, hagrees, ?_⟩
  have hplain : (lastMessagesAtOnce 3 plantedBoard).answer = .ok [{ id := 6, text := "middle" },
      { id := 8, text := "first of two" }, { id := 8, text := "second of two" }] := by
    -- The query answers the ids up to the counter, by key.
    have hread : (lastMessagesAtOnce 3 plantedBoard).answer = .ok (lastOf 3
        [{ id := 8, text := "first of two" }, { id := 1, text := "lowest" },
          { id := 8, text := "second of two" }, { id := 6, text := "middle" },
          { id := 4, text := "low" }]) := rfl
    rw [hread]
    simp [lastOf, Message.sortById, List.mergeSort]
  rcases hagrees.answers _ hplain with hanswer | ⟨-, hcounter⟩
  · exact hanswer
  · -- The counter is not the greatest word.
    obtain ⟨r, hrecord, hfind⟩ := hcounter
    obtain rfl := Option.some.inj hrecord
    exact absurd hfind (by decide)

end Board

end Guestbook
