import Guestbook.Cache.Request
import Guestbook.Proofs.Board.Cached
import Guestbook.Proofs.Board.Ids
import Guestbook.Proofs.Cache.Tally

/-!
# What a failure leaves behind

In any state of a board, whatever its store and its cache hold, a request that fails leaves behind
exactly what it did before it failed. A read never changes the records or the counter, and one that
fails adds no entry to the cache. A delete drops the cache first, so the cache is empty even if the
delete fails. A post drops the cache as soon as it has an id, whether or not its message is stored.

## Main definitions
- `Board.Atomic`: what each request leaves, however it ends
- `BoardStep.clears`: how often a step drops the cache

## Main statements
- `Board.addsNothing_serve`: a read that fails adds no entry
- `Board.satisfies_delete_any`, `Board.satisfies_post_issued`: the writes
- `BoardStep.clears_perform`: a step is counted in the statistics as often as it drops the cache
- `Ledger.atomic_of_run`: every state, and every run
-/

namespace Guestbook

open Guestbook.Action (Preserves StopsKeep preserves_pure preserves_fail preserves_report)
open TalliedCache (AddsNothing Emptied Cleared)

/-! ## Reads that fail -/

namespace Board

variable {σ γ : Type} [Store σ] [Cache γ] [LawfulCache γ] [TalliedCache γ] {old : γ}

omit [Store σ] in
theorem addsNothing_look (key : String) :
    Preserves (fun b : Board σ γ => AddsNothing old b.cache)
      (atCache (Cache.get key) : Action (Board σ γ) (Option Bytes)) :=
  fun b hb => hb.trans (TalliedCache.satisfies_get b.cache key).state

omit [Store σ] in
theorem addsNothing_populate (key : String) (ms : List Message) :
    StopsKeep (fun b : Board σ γ => AddsNothing old b.cache)
      (populate key ms : Action (Board σ γ) Unit) := by
  have hoffer : StopsKeep (fun b : Board σ γ => AddsNothing old b.cache)
      (atCache (Cache.set key (Json.encodeMessages ms)
        (UInt64.ofNat (Json.encodeMessages ms).length)) : Action (Board σ γ) Bool) := by
    intro b hb
    exact (TalliedCache.satisfies_set b.cache key _ _).imp (fun _ _ _ => trivial)
      fun _ _ => hb.trans
  intro b hb
  unfold populate
  rw [Action.satisfies_bind]
  apply (hoffer b hb).imp
  · -- After the offer the board only reports what came of it.
    intro accepted c _
    cases accepted <;> trivial
  · exact fun _ _ => id

omit [Store σ] in
/-- A read through an entry that stops adds no entry: the offer is its last step. -/
theorem addsNothing_readThrough {key : String} {hit : Event}
    {read : Action (Board σ γ) (List Message)}
    (hread : Preserves (fun b : Board σ γ => AddsNothing old b.cache) read) :
    StopsKeep (fun b : Board σ γ => AddsNothing old b.cache) (readThrough key hit read) := by
  apply (preserves_cached (addsNothing_look _)).bind_stopsKeep
  intro found
  cases found with
  | some ms => exact ((preserves_report _).bind fun _ => preserves_pure _).stopsKeep
  | none =>
    apply hread.bind_stopsKeep
    exact fun ms => (addsNothing_populate _ ms).bind_pure _

theorem addsNothing_allCached (byTimestamp : Bool) :
    StopsKeep (fun b : Board σ γ => AddsNothing old b.cache)
      (allCached byTimestamp : Action (Board σ γ) (List Message)) :=
  addsNothing_readThrough (preserves_all (.ofCache _) byTimestamp)

theorem addsNothing_page (number size : Int64) :
    StopsKeep (fun b : Board σ γ => AddsNothing old b.cache)
      (page number size : Action (Board σ γ) (List Message)) := by
  by_cases hvalid : number < 1 ∨ size < 1
  · rw [page_of_invalid hvalid]
    exact (preserves_fail _).stopsKeep
  · rw [page_of_valid hvalid]
    apply (preserves_count (.ofCache _)).bind_stopsKeep
    exact fun n => addsNothing_readThrough (preserves_pageRead (.ofCache _) number size n)

end Board

/-- A read that fails adds no entry to the cache. -/
theorem BoardRequest.addsNothing_serve {σ γ : Type} [Store σ] [Cache γ] [LawfulCache γ]
    [TalliedCache γ] {old : γ} {r : BoardRequest} (hr : r.reads = true) :
    StopsKeep (fun b : Board σ γ => AddsNothing old b.cache)
      (r.serve : Action (Board σ γ) BoardReply) := by
  cases r with
  | post m => cases hr
  | delete id => cases hr
  | all byTimestamp => exact (Board.preserves_all (.ofCache _) byTimestamp).stopsKeep.bind_pure _
  | allCached byTimestamp => exact (Board.addsNothing_allCached byTimestamp).bind_pure _
  | range low high => exact (Board.preserves_range (.ofCache _) low high).stopsKeep.bind_pure _
  | page number size => exact (Board.addsNothing_page number size).bind_pure _
  | count => exact (Board.preserves_count (.ofCache _)).stopsKeep.bind_pure _
  | awaitReady timeout =>
    exact ((Board.ReadsKeep.ofCache (AddsNothing old)).awaitReady timeout).stopsKeep.bind_pure _
  | isConnected => exact fun _ _ => trivial
  | close => exact (Board.ReadsKeep.ofCache (AddsNothing old)).close.stopsKeep.bind_pure _

/-! ## Writes -/

namespace Board

variable {γ : Type} [Cache γ] [LawfulCache γ] [TalliedCache γ]
  {b : Board (ObservedStore MemoryStore) γ}

/-- The records and the counter of the store inside are the same. -/
def SameData (b c : Board (ObservedStore MemoryStore) γ) : Prop :=
  b.store.inner.SameData c.store.inner

theorem clears_atCache (b : Board (ObservedStore MemoryStore) γ) :
    (atCache Cache.clear b).Satisfies
      (fun _ c => c.store = b.store ∧ Cleared b.cache c.cache) fun _ _ => False := by
  rw [satisfies_atCache]
  exact (TalliedCache.satisfies_clear b.cache).imp (fun _ _ h => ⟨rfl, h⟩) fun _ _ => id

/-- A delete drops the cache, whatever it answers. One that fails changes no data. -/
theorem satisfies_delete_any (b : Board (ObservedStore MemoryStore) γ) (id : Int64) :
    (delete id b).Satisfies (fun _ c => Cleared b.cache c.cache)
      fun _ c => Cleared b.cache c.cache ∧ SameData b c := by
  unfold delete
  rw [Action.satisfies_bind]
  apply (clears_atCache b).imp
  · -- The store is called after the clear, so what it answers does not concern the cache.
    rintro _ c ⟨hstore, hcache⟩
    rw [Action.satisfies_bind, satisfies_atStore, hstore]
    apply (ObservedStore.satisfies_delete_any id).imp
    · exact fun _ _ _ => hcache
    · exact fun _ _ hsame => ⟨hcache, hsame⟩
  · exact fun _ _ => False.elim

omit [LawfulCache γ] [TalliedCache γ] in
/-- A post without an id changes nothing but what the gate holds. -/
theorem satisfies_post_unissued {why : Stop}
    (h : (Store.increment 1 b.store).answer = .error why) (m : Message) :
    (post m b).Satisfies (fun _ _ => False)
      fun why' c => why' = why ∧ SameData b c ∧ c.cache = b.cache := by
  have hincrement := (ObservedStore.satisfies_increment_any (s := b.store) 1).of_error h
  unfold post
  rw [Action.satisfies_bind, satisfies_atStore, Outcome.satisfies_iff_of_error h]
  exact ⟨rfl, hincrement, rfl⟩

/-- Why storing the message of a post under its id fails, if it does. -/
def putStops (b : Board (ObservedStore MemoryStore) γ) (m : Message) (id : Int64) (why : Stop) :
    Prop :=
  (Store.put id (Record.ofMessage { m with id }) (Store.increment 1 b.store).state).answer
    = .error why

/-- A post with an id drops the cache. If its message is not stored the records are as they were and
the counter has moved by one. -/
theorem satisfies_post_issued {id : Int64} (h : (Store.increment 1 b.store).answer = .ok id)
    (m : Message) :
    (post m b).Satisfies
      (fun id' c => Cleared b.cache c.cache ∧ id' = id ∧ ∀ why, ¬ putStops b m id why)
      fun why c => Cleared b.cache c.cache ∧ putStops b m id why ∧
        b.store.inner.Advanced 1 id c.store.inner := by
  have hincrement := (ObservedStore.satisfies_increment_any (s := b.store) 1).of_ok h
  unfold post
  rw [Action.satisfies_bind, satisfies_atStore, Outcome.satisfies_iff_of_ok h,
    Action.satisfies_bind, Action.satisfies_attempt, satisfies_atStore]
  -- Whether the message was stored is known before the clear and told after it.
  apply (ObservedStore.satisfies_put_any id _).with_answer.with_stop.imp
  · rintro _ store ⟨-, hstored⟩
    rw [Action.satisfies_bind]
    apply (clears_atCache _).imp
    · rintro _ c ⟨-, hcache⟩
      rw [Action.satisfies_bind, Action.satisfies_orFail_ok, Action.satisfies_bind,
        Action.satisfies_report, Action.satisfies_pure]
      refine ⟨hcache, rfl, ?_⟩
      intro why hstops
      exact nomatch hstored.symm.trans hstops
    · exact fun _ _ => False.elim
  · -- The failure is answered only after the clear.
    rintro _ store ⟨⟨⟨cause, rfl⟩, hsame⟩, hstops⟩
    dsimp only
    rw [Action.satisfies_bind]
    apply (clears_atCache _).imp
    · rintro _ c ⟨hstore, hcache⟩
      rw [Action.satisfies_bind, Action.satisfies_orFail_error, hstore]
      exact ⟨hcache, hstops, hincrement.of_sameData hsame⟩
    · exact fun _ _ => False.elim

/-- What each request leaves of records, counter and cache, however it ends. -/
structure Atomic (b : Board (ObservedStore MemoryStore) γ) : Prop where
  /-- A read changes neither records nor counter. -/
  reads : ∀ r : BoardRequest, r.reads = true → SameData b (r.serve b).state
  /-- A read that fails leaves no entry in the cache that was not there before. -/
  failedReads : ∀ r : BoardRequest, r.reads = true → ∀ why, (r.serve b).answer = .error why →
    LawfulCache.entries (r.serve b).state.cache ⊆ LawfulCache.entries b.cache
  /-- A delete empties the cache, whatever it answers. -/
  delete : ∀ id, Emptied (delete id b).state.cache
  failedDelete : ∀ id why, (Board.delete id b).answer = .error why →
    SameData b (Board.delete id b).state
  /-- A post that gets no id changes nothing. -/
  unissued : ∀ m why, (Store.increment 1 b.store).answer = .error why →
    (post m b).answer = .error why ∧ SameData b (post m b).state ∧ (post m b).state.cache = b.cache
  /-- A post that gets an id empties the cache, whatever it answers. -/
  issued : ∀ m id, (Store.increment 1 b.store).answer = .ok id → Emptied (post m b).state.cache
  /-- A post whose message is not stored fails as storing it did. It changes no record and moves the
  counter by one. -/
  unstored : ∀ m id why, (Store.increment 1 b.store).answer = .ok id → putStops b m id why →
    (post m b).answer = .error why ∧ (post m b).state.store.inner.records = b.store.inner.records ∧
      b.store.inner.Advanced 1 id (post m b).state.store.inner ∧
      ∀ n, b.store.inner.Counts n → (post m b).state.store.inner.Counts (n + 1)

theorem atomic (b : Board (ObservedStore MemoryStore) γ) : b.Atomic where
  reads r hr :=
    BoardRequest.preserves_serve
      (.ofStore (ObservedStore.readsKeep (MemoryStore.readsKeep_sameData (s := b.store.inner))))
      (.ofStore fun s : ObservedStore MemoryStore => b.store.inner.SameData s.inner) hr b (.refl _)
  failedReads r hr why hstop :=
    ((BoardRequest.addsNothing_serve hr b (AddsNothing.refl b.cache)).of_error hstop).entries
  delete id :=
    ((satisfies_delete_any b id).imp (fun _ _ h => h) fun _ _ h => h.1).state.emptied
  failedDelete id why hstop := ((satisfies_delete_any b id).of_error hstop).2
  unissued m why hincrement := by
    obtain ⟨why', hanswer, rfl, hsame, hcache⟩ :=
      (satisfies_post_unissued hincrement m).stops fun _ _ => id
    exact ⟨hanswer, hsame, hcache⟩
  issued m id hincrement :=
    ((satisfies_post_issued hincrement m).imp (fun _ _ h => h.1) fun _ _ h => h.1).state.emptied
  unstored m id why hincrement hstops := by
    have hpost := satisfies_post_issued hincrement m
    cases hanswer : (post m b).answer with
    | ok id' => exact absurd hstops ((hpost.of_ok hanswer).2.2 why)
    | error why' =>
      obtain ⟨-, hstops', hadvanced⟩ := hpost.of_error hanswer
      obtain rfl := Except.error.inj (hstops'.symm.trans hstops)
      exact ⟨rfl, hadvanced.records, hadvanced, fun n hn => hadvanced.counts hn⟩

end Board

/-! ## Clears over a run -/

namespace BoardStep

variable {γ : Type}

/-- Whether a step is a delete. -/
def deletes : BoardStep γ → Bool
  | request (.delete _) => true
  | _ => false

/-- How often a step drops the cache: once for a delete, and once for a post that gets an id. -/
def clears (b : Board (ObservedStore MemoryStore) γ) (step : BoardStep γ) : Nat :=
  step.deletes.toNat + step.increments b

/-- A step from outside that tampers with the cache leaves the count of clears as it is. -/
def SparesClears [Cache γ] : BoardStep γ → Prop
  | tamper f => ∀ c, (Cache.stats (f c)).clears = (Cache.stats c).clears
  | _ => True

variable [Cache γ] [LawfulCache γ] [TalliedCache γ] {b : Board (ObservedStore MemoryStore) γ}

theorem clears_post (m : Message) :
    (Cache.stats (Board.post m b).state.cache).clears
      = (Cache.stats b.cache).clears + b.issues := by
  cases hincrement : (Store.increment 1 b.store).answer with
  | ok id =>
    have hissues : b.issues = 1 := by simp [Board.issues, hincrement]
    rw [hissues]
    exact ((Board.satisfies_post_issued hincrement m).imp (fun _ _ h => h.1)
      fun _ _ h => h.1).state.clears
  | error why =>
    -- A post without an id does not come to its clear.
    have hissues : b.issues = 0 := by simp [Board.issues, hincrement]
    rw [hissues, (b.atomic.unissued m why hincrement).2.2]
    rfl

/-- Neither a look-up nor an offer is counted as a clear. -/
theorem looksKeep_clears (n : Nat) :
    Board.LooksKeep fun b : Board (ObservedStore MemoryStore) γ =>
      (Cache.stats b.cache).clears = n where
  get key b hb := (TalliedCache.satisfies_get b.cache key).state.clears.trans hb
  set key bytes cost b hb :=
    ((TalliedCache.satisfies_set b.cache key bytes cost).imp (fun _ _ h => h)
      fun _ _ h => h.clears).state.trans hb

theorem clears_reads {r : BoardRequest} (hr : r.reads = true) :
    (Cache.stats (r.serve b).state.cache).clears = (Cache.stats b.cache).clears :=
  BoardRequest.preserves_serve (.ofCache fun c : γ => (Cache.stats c).clears = _)
    (looksKeep_clears _) hr b rfl

/-- The statistics count a clear for each time that a step drops the cache. -/
theorem clears_perform {step : BoardStep γ} (hspares : step.SparesClears) :
    (Cache.stats (step.perform b).state.cache).clears
      = (Cache.stats b.cache).clears + step.clears b := by
  cases step with
  | request r =>
    cases r with
    | post m =>
      rw [perform, BoardRequest.state_serve_post, clears_post]
      show _ = (Cache.stats b.cache).clears + (0 + b.issues)
      rw [Nat.zero_add]
    | delete id =>
      rw [perform, BoardRequest.state_serve_delete]
      exact ((Board.satisfies_delete_any b id).imp (fun _ _ h => h) fun _ _ h => h.1).state.clears
    | _ => exact clears_reads rfl
  | connectFirst =>
    have hconnect : Preserves
        (fun c : Board (ObservedStore MemoryStore) γ =>
          (Cache.stats c.cache).clears = (Cache.stats b.cache).clears)
        (connectFirst : BoardStep γ).perform :=
      Preserves.bind (fun _ hc => hc) fun _ => preserves_pure _
    exact hconnect b rfl
  | tamper f => exact hspares b.cache
  | _ => exact rfl

end BoardStep

namespace Ledger

variable {γ : Type} [Cache γ] [LawfulCache γ] [TalliedCache γ]

/-- The clears of a run are those of its deletes and of its posts that got an id. -/
theorem clears_play {l : Ledger γ} {steps : List (BoardStep γ)}
    (hspares : ∀ step ∈ steps, step.SparesClears) :
    (Cache.stats (l.play steps).board.cache).clears + l.increments
      = (Cache.stats l.board.cache).clears + steps.countP BoardStep.deletes
        + (l.play steps).increments := by
  -- The ledger counts the increments, and the statistics go on from what they stood at.
  induction steps generalizing l with
  | nil => rfl
  | cons step steps ih =>
    have hstep := BoardStep.clears_perform (b := l.board) (hspares step List.mem_cons_self)
    have hrest := ih (l := l.next step) fun other hother =>
      hspares other (List.mem_cons_of_mem step hother)
    have hplay : l.play (step :: steps) = (l.next step).play steps := rfl
    have hboard : (l.next step).board = (step.perform l.board).state := rfl
    have hincrements : (l.next step).increments = l.increments + step.increments l.board := rfl
    have hdelete : (if step.deletes = true then 1 else 0) = step.deletes.toNat := by
      cases step.deletes <;> rfl
    rw [hboard, hstep, hincrements, BoardStep.clears] at hrest
    rw [hplay, List.countP_cons, hdelete]
    omega

/-- Every request to a board in any state leaves exactly what it did before it failed, if it fails.
Over any run the board has dropped its cache once for each delete and for each post that got an
id. -/
theorem atomic_of_run (b : Board (ObservedStore MemoryStore) γ) :
    b.Atomic ∧ ∀ steps : List (BoardStep γ), (∀ step ∈ steps, step.SparesClears) →
      (Cache.stats (({ board := b } : Ledger γ).play steps).board.cache).clears
        = (Cache.stats b.cache).clears + steps.countP BoardStep.deletes
          + (({ board := b } : Ledger γ).play steps).increments :=
  ⟨b.atomic, fun _ hspares => clears_play (l := { board := b }) hspares⟩

/-- A board with a record that is no message, a counter that was used before, and a cache whose
entry cannot be read and whose recorded cost is wrong. -/
def neglectedBoard : Board (ObservedStore MemoryStore) ObservedCache :=
  { store :=
      { inner :=
          { records := SortedMap.empty.insert 3 .empty
            counterRecord := some (SortedMap.empty.insert Bin.count (.int 6)) } }
    cache :=
      { inner := .lru { maxCost := 40, entries := [⟨Page.allMessagesKey, [0], 3⟩], cost := 99 } } }

/-- Posts that are stored, not stored and turned away, deletes that succeed and that fail, and reads
that fail, in part while offers to the cache are declined. One of the reads is a search whose second
query fails. -/
def unluckySteps : List (BoardStep ObservedCache) :=
  [.request (.allCached false), .request (.post { author := "a", text := "1" }),
    .mishap .put .notConnected 0, .request (.post { author := "b", text := "2" }),
    .tamper (RecordingCache.decline true), .request (.allCached false),
    .mishap .queryByRange (.refused "busy") 1, .request (.page 9 1), .request (.delete 3),
    .setReachable false, .request (.page 1 1), .request (.delete 7),
    .request (.post { author := "c", text := "3" })]

/-- Two deletes and two of three posts, one of which was not stored, make four clears. -/
theorem atomic_of_run_unlucky :
    (∀ step ∈ unluckySteps, step.SparesClears) ∧
      (({ board := neglectedBoard } : Ledger ObservedCache).play unluckySteps).ids = [7] ∧
      neglectedBoard.Atomic ∧
      (Cache.stats
        (({ board := neglectedBoard } : Ledger ObservedCache).play unluckySteps).board.cache).clears
          = 4 := by
  have hspares : ∀ step ∈ unluckySteps, step.SparesClears := by
    simp [unluckySteps, BoardStep.SparesClears, RecordingCache.decline, Cache.stats]
  have hrun := atomic_of_run neglectedBoard
  refine ⟨hspares, by decide +kernel, hrun.1, ?_⟩
  have hdeletes : unluckySteps.countP BoardStep.deletes = 2 := by decide +kernel
  have hincrements : (({ board := neglectedBoard } : Ledger ObservedCache).play
      unluckySteps).increments = 2 := by decide +kernel
  rw [hrun.2 unluckySteps hspares, hdeletes, hincrements]
  rfl

end Ledger

end Guestbook
