import Guestbook.Board.Request
import Guestbook.Proofs.Board.ReadThrough
import Guestbook.Proofs.Store.Frame

/-!
# What requests leave alone

A board touches its store and its cache only through their operations. So a property that the
operations keep which a request may call is kept by the request, however it ends: on any board, over
any store and any cache, and whatever the calls meet. A request that writes nothing calls only reads
of the store, and leaves the records and the counter as they are.

## Main definitions
- `Board.ReadsKeep`, `Board.LooksKeep`: what a board does when it reads keeps a property
- `Board.Inside`: a property of the store inside a board
- `BoardRequest.reads`: the requests that write nothing

## Main statements
- `Board.preserves_searchLast`, `Board.preserves_page`: the search for the last messages, and a page
- `BoardRequest.preserves_serve`: every request that writes nothing
- `BoardRequest.passed_serve`: it leaves records and counter as they are
-/

namespace Guestbook

open Guestbook.Action (Preserves preserves_pure preserves_fail preserves_stop preserves_state
  preserves_report preserves_reporting preserves_orFail preserves_orFault)

/-! ## Parts of a board -/

namespace Board

section Parts

variable {γ : Type} {P : MemoryStore → Prop} {α : Type}

/-- The store inside a board has a property. -/
def Inside (P : MemoryStore → Prop) (b : Board (ObservedStore MemoryStore) γ) : Prop :=
  P b.store.inner

theorem preserves_atStore {a : Action (ObservedStore MemoryStore) α}
    (ha : Preserves (P ·.inner) a) : Preserves (Inside P) (atStore a : Action (Board _ γ) α) :=
  fun b hb => ha b.store hb

/-- What happens to the cache does not concern the store. -/
theorem preserves_atCache (a : Action γ α) :
    Preserves (Inside P) (atCache a : Action (Board (ObservedStore MemoryStore) γ) α) :=
  fun _ hb => hb

end Parts

variable {σ γ : Type} [Store σ] [Cache γ]

/-- What a board does to its store when it writes neither records nor counter keeps a property. -/
structure ReadsKeep (P : Board σ γ → Prop) : Prop where
  queryByRange : ∀ index low high,
    Preserves P (atStore (Store.queryByRange index low high) : Action (Board σ γ) (List Record))
  scanAll : Preserves P (atStore Store.scanAll : Action (Board σ γ) (List Record))
  countAll : Preserves P (atStore Store.countAll : Action (Board σ γ) Nat)
  counter : Preserves P (atStore Store.counter : Action (Board σ γ) Int64)
  awaitReady : ∀ timeout, Preserves P (atStore (Store.awaitReady timeout) : Action (Board σ γ) Unit)
  close : Preserves P (atStore Store.close : Action (Board σ γ) Unit)

omit [Cache γ] in
/-- A property of the store is kept if the reads of the store keep it. -/
theorem ReadsKeep.ofStore {P : σ → Prop} (h : Store.ReadsKeep P) :
    ReadsKeep fun b : Board σ γ => P b.store where
  queryByRange index low high b hb := h.queryByRange index low high b.store hb
  scanAll b hb := h.scanAll b.store hb
  countAll b hb := h.countAll b.store hb
  counter b hb := h.counter b.store hb
  awaitReady timeout b hb := h.awaitReady timeout b.store hb
  close b hb := h.close b.store hb

omit [Cache γ] in
/-- A property of the cache does not concern the store. -/
theorem ReadsKeep.ofCache (P : γ → Prop) : ReadsKeep fun b : Board σ γ => P b.cache where
  queryByRange _ _ _ _ hb := hb
  scanAll _ hb := hb
  countAll _ hb := hb
  counter _ hb := hb
  awaitReady _ _ hb := hb
  close _ hb := hb

/-- What a board does to its cache when it reads keeps a property. -/
structure LooksKeep (P : Board σ γ → Prop) : Prop where
  get : ∀ key, Preserves P (atCache (Cache.get key) : Action (Board σ γ) (Option Bytes))
  set : ∀ key bytes cost,
    Preserves P (atCache (Cache.set key bytes cost) : Action (Board σ γ) Bool)

omit [Store σ] in
/-- A property of the store does not concern the cache. -/
theorem LooksKeep.ofStore (P : σ → Prop) : LooksKeep fun b : Board σ γ => P b.store where
  get _ _ hb := hb
  set _ _ _ _ hb := hb

omit [Store σ] in
/-- A property of the cache is kept if its look-ups and offers keep it. -/
theorem LooksKeep.ofCache {P : γ → Prop}
    (hget : ∀ key, Preserves P (Cache.get key : Action γ (Option Bytes)))
    (hset : ∀ key bytes cost, Preserves P (Cache.set key bytes cost : Action γ Bool)) :
    LooksKeep fun b : Board σ γ => P b.cache where
  get key b hb := hget key b.cache hb
  set key bytes cost b hb := hset key bytes cost b.cache hb

/-! ## Reads of a board -/

section Reads

variable {P : Board σ γ → Prop} (h : ReadsKeep P)

include h

omit [Cache γ] in
theorem preserves_all (byTimestamp : Bool) :
    Preserves P (all byTimestamp : Action (Board σ γ) (List Message)) :=
  h.scanAll.bind fun _ => (preserves_reporting _).bind fun _ => preserves_pure _

omit [Cache γ] in
theorem preserves_range (low high : Int64) :
    Preserves P (range low high : Action (Board σ γ) (List Message)) :=
  preserves_state.bind fun b => (h.queryByRange b.index low high).bind fun _ =>
    preserves_reporting _

omit [Cache γ] in
theorem preserves_count : Preserves P (count : Action (Board σ γ) Nat) := h.countAll

omit [Cache γ] in
/-- However often the search widens its range, it only reads. -/
theorem preserves_searchLast (size lastId span : Int64) :
    Preserves P (searchLast size lastId span : Action (Board σ γ) (List Message)) := by
  -- The span grows towards the greatest word, so its distance from there carries the induction.
  induction hdistance : (Word.greatest - span.toInt).toNat using Nat.strongRecOn
    generalizing span with
  | ind distance ih =>
    unfold searchLast
    refine (preserves_orFault _).bind fun low => ?_
    refine (preserves_range h low lastId).bind fun ms => ?_
    split
    · exact preserves_pure _
    · split
      · next hwider =>
        have hnear := Word.le_greatest (Word.saturatingDouble span)
        exact ih _ (by omega) _ rfl
      · exact preserves_stop _

omit [Cache γ] in
theorem preserves_lastMessages (size : Int64) :
    Preserves P (lastMessages size : Action (Board σ γ) (List Message)) :=
  h.counter.bind fun lastId => preserves_searchLast h size lastId size

omit [Cache γ] in
theorem preserves_readWindow (size : Int64) (window : PageWindow) :
    Preserves P (readWindow size window : Action (Board σ γ) (List Message)) := by
  cases window with
  | ids low high => exact (preserves_range h low high).bind fun _ => preserves_pure _
  | last => exact preserves_lastMessages h size

omit [Cache γ] in
theorem preserves_pageRead (number size : Int64) (n : Nat) :
    Preserves P (pageRead number size n : Action (Board σ γ) (List Message)) := by
  unfold pageRead
  split
  · exact preserves_all h false
  · exact (preserves_orFault _).bind fun window => (preserves_report _).bind fun _ =>
      preserves_readWindow h size window

variable (hlooks : LooksKeep P)

include hlooks

theorem preserves_allCached (byTimestamp : Bool) :
    Preserves P (allCached byTimestamp : Action (Board σ γ) (List Message)) :=
  preserves_readThrough (hlooks.get _) (hlooks.set _) (preserves_all h byTimestamp)

theorem preserves_page (number size : Int64) :
    Preserves P (page number size : Action (Board σ γ) (List Message)) := by
  by_cases hvalid : number < 1 ∨ size < 1
  · rw [page_of_invalid hvalid]
    exact preserves_fail _
  · rw [page_of_valid hvalid]
    refine (preserves_count h).bind fun n => ?_
    exact preserves_readThrough (hlooks.get _) (hlooks.set _) (preserves_pageRead h number size n)

end Reads

/-! ## Writes of a board -/

/-- What a board does to its store and its cache when it writes keeps a property. -/
structure WritesKeep (P : Board σ γ → Prop) : Prop where
  put : ∀ key r, Preserves P (atStore (Store.put key r) : Action (Board σ γ) Unit)
  delete : ∀ key, Preserves P (atStore (Store.delete key) : Action (Board σ γ) Bool)
  increment : ∀ amount, Preserves P (atStore (Store.increment amount) : Action (Board σ γ) Int64)
  clear : Preserves P (atCache Cache.clear : Action (Board σ γ) Unit)

/-- A property of the store is kept if the operations of the store keep it. -/
theorem WritesKeep.ofStore {P : σ → Prop} (h : Store.CallsKeep P) :
    WritesKeep fun b : Board σ γ => P b.store where
  put key r b hb := h.put key r b.store hb
  delete key b hb := h.delete key b.store hb
  increment amount b hb := h.increment amount b.store hb
  clear _ hb := hb

/-- A property of the cache is kept if a clear keeps it. -/
theorem WritesKeep.ofCache {P : γ → Prop} (h : Preserves P (Cache.clear : Action γ Unit)) :
    WritesKeep fun b : Board σ γ => P b.cache where
  put _ _ _ hb := hb
  delete _ _ hb := hb
  increment _ _ hb := hb
  clear b hb := h b.cache hb

theorem preserves_post {P : Board σ γ → Prop} (h : WritesKeep P) (m : Message) :
    Preserves P (post m : Action (Board σ γ) Int64) := by
  refine (h.increment 1).bind fun id => ?_
  refine (h.put id _).attempt.bind fun stored => ?_
  refine h.clear.bind fun _ => (preserves_orFail stored).bind fun _ => ?_
  exact (preserves_report _).bind fun _ => preserves_pure _

theorem preserves_delete {P : Board σ γ → Prop} (h : WritesKeep P) (id : Int64) :
    Preserves P (delete id : Action (Board σ γ) Bool) :=
  h.clear.bind fun _ => (h.delete id).bind fun _ => (preserves_report _).bind fun _ =>
    preserves_pure _

end Board

/-! ## Requests -/

namespace BoardRequest

variable {σ γ : Type} [Store σ] [Cache γ] {P : Board σ γ → Prop}

theorem answer_serve_post (m : Message) (b : Board σ γ) :
    ((post m).serve b).answer = (Board.post m b).answer.map .id := Action.answer_bind_pure ..

theorem state_serve_post (m : Message) (b : Board σ γ) :
    ((post m).serve b).state = (Board.post m b).state := Action.state_bind_pure ..

theorem answer_serve_delete (id : Int64) (b : Board σ γ) :
    ((delete id).serve b).answer = (Board.delete id b).answer.map .truth :=
  Action.answer_bind_pure ..

theorem state_serve_delete (id : Int64) (b : Board σ γ) :
    ((delete id).serve b).state = (Board.delete id b).state := Action.state_bind_pure ..

theorem answer_serve_allCached (byTimestamp : Bool) (b : Board σ γ) :
    ((allCached byTimestamp).serve b).answer
      = (Board.allCached byTimestamp b).answer.map .messages :=
  Action.answer_bind_pure ..

theorem state_serve_allCached (byTimestamp : Bool) (b : Board σ γ) :
    ((allCached byTimestamp).serve b).state = (Board.allCached byTimestamp b).state :=
  Action.state_bind_pure ..

theorem answer_serve_page (number size : Int64) (b : Board σ γ) :
    ((page number size).serve b).answer = (Board.page number size b).answer.map .messages :=
  Action.answer_bind_pure ..

theorem state_serve_page (number size : Int64) (b : Board σ γ) :
    ((page number size).serve b).state = (Board.page number size b).state :=
  Action.state_bind_pure ..

/-- Whether a request writes nothing. -/
def reads : BoardRequest → Bool
  | post _ | delete _ => false
  | _ => true

/-- What a board keeps when it reads, a request that writes nothing keeps, however it ends. -/
theorem preserves_serve (h : Board.ReadsKeep P) (hlooks : Board.LooksKeep P) {r : BoardRequest}
    (hr : r.reads = true) : Preserves P (r.serve : Action (Board σ γ) BoardReply) := by
  cases r with
  | post m => cases hr
  | delete id => cases hr
  | all byTimestamp => exact (Board.preserves_all h byTimestamp).bind fun _ => preserves_pure _
  | allCached byTimestamp =>
    exact (Board.preserves_allCached h hlooks byTimestamp).bind fun _ => preserves_pure _
  | range low high => exact (Board.preserves_range h low high).bind fun _ => preserves_pure _
  | page number size =>
    exact (Board.preserves_page h hlooks number size).bind fun _ => preserves_pure _
  | count => exact (Board.preserves_count h).bind fun _ => preserves_pure _
  | awaitReady timeout => exact (h.awaitReady timeout).bind fun _ => preserves_pure _
  | isConnected => exact preserves_state.bind fun _ => preserves_pure _
  | close => exact h.close.bind fun _ => preserves_pure _

/-- What a board keeps when it reads and when it writes, every request keeps. -/
theorem preserves_serve_of_writes (h : Board.ReadsKeep P) (hlooks : Board.LooksKeep P)
    (hwrites : Board.WritesKeep P) (r : BoardRequest) :
    Preserves P (r.serve : Action (Board σ γ) BoardReply) := by
  cases r with
  | post m => exact (Board.preserves_post hwrites m).bind fun _ => preserves_pure _
  | delete id => exact (Board.preserves_delete hwrites id).bind fun _ => preserves_pure _
  | _ => exact preserves_serve h hlooks rfl

omit [Store σ] in
/-- What every operation of the store inside keeps, every request keeps. -/
theorem preserves_serve_of_calls {P : MemoryStore → Prop} (h : Store.CallsKeep P)
    (r : BoardRequest) :
    Preserves (Board.Inside P)
      (r.serve : Action (Board (ObservedStore MemoryStore) γ) BoardReply) :=
  preserves_serve_of_writes (.ofStore (ObservedStore.readsKeep h.toReadsKeep))
    (.ofStore fun s : ObservedStore MemoryStore => P s.inner)
    (.ofStore (ObservedStore.callsKeep h)) r

omit [Store σ] in
/-- A request that writes nothing leaves records and counter as they are, however it ends. -/
theorem passed_serve {inner : MemoryStore} {r : BoardRequest} (hr : r.reads = true) :
    Preserves (Board.Inside inner.Passed)
      (r.serve : Action (Board (ObservedStore MemoryStore) γ) BoardReply) :=
  preserves_serve (.ofStore (ObservedStore.readsKeep MemoryStore.readsKeep_passed))
    (.ofStore fun s : ObservedStore MemoryStore => inner.Passed s.inner) hr

end BoardRequest

end Guestbook
