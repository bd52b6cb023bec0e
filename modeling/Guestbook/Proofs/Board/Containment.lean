import Guestbook.Proofs.Board.Atomicity
import Guestbook.Proofs.Board.Consulted
import Guestbook.Proofs.Board.Damage
import Guestbook.Proofs.Board.Run
import Guestbook.Proofs.Board.Twins

/-!
# A corrupt entry

Bytes that decode to no list of messages are put under some key of a board's cache. Every read that
consults the key fails and names it, and leaves the bytes where they are; nothing else that is asked
of the board is answered differently. The next write that drops the cache drops the bytes with it,
and from then on nothing tells the board from one that never had them.

## Main definitions
- `Board.Tracks`: boards over twin stores whose caches have the same under some keys
- `Board.Contained`: what a corrupt entry does while it is there
- `Board.Healed`: what it leaves when it is gone
- `History.clears`: whether a run drops the cache

## Main statements
- `BoardRequest.find?_serve`: a read changes at most the entry that it consults
- `Board.Tracks.serve_read`: a read on both boards
- `Board.Follows.perform`: a move of both boards
- `History.contains_of_run`: every run
-/

namespace Guestbook

open Guestbook.Action (InStep Preserves)
open Outcome (Satisfies)

/-! ## Entries of a map cache -/

namespace MapCache

theorem entries_get (key : String) (c : MapCache) :
    (Cache.get key c).state.entries = c.entries := by
  show (get key c).state.entries = c.entries
  unfold get
  split <;> rfl

theorem find?_set_of_ne {key other : String} (h : key ≠ other) (bytes : Bytes) (cost : Cost)
    (c : MapCache) :
    (Cache.set key bytes cost c).state.entries.find? other = c.entries.find? other :=
  (SortedMap.find?_insert c.entries key other bytes).trans (if_neg h)

theorem find?_of_emptied {c : MapCache} (h : TalliedCache.Emptied c) (key : String) :
    c.entries.find? key = none := by
  have hentries : c.entries.entries = [] := h.entries
  rw [SortedMap.find?, hentries]
  rfl

end MapCache

namespace BoardRequest

variable {σ : Type} [Store σ] {b : Board σ MapCache} {r : BoardRequest} {key : String}

/-- A read changes at most the entry that it consults. -/
theorem find?_serve (hr : r.reads = true) (h : r.consulted b ≠ some key) :
    (r.serve b).state.cache.entries.find? key = b.cache.entries.find? key := by
  cases hconsulted : r.consulted b with
  | none => rw [cache_serve_of_unconsulted hr hconsulted]
  | some other =>
    have hne : other ≠ key := by
      rintro rfl
      exact h hconsulted
    obtain ⟨c, hit, read, hcache, hkeeps, -, hstate⟩ := exists_readThrough hconsulted
    have hread : Preserves
        (fun d : Board σ MapCache => d.cache.entries.find? key = b.cache.entries.find? key)
        (Board.readThrough other hit read) := by
      apply Board.preserves_readThrough
      · intro d hd
        exact (congrArg (·.find? key) (MapCache.entries_get other d.cache)).trans hd
      · intro bytes cost d hd
        exact (MapCache.find?_set_of_ne hne bytes cost d.cache).trans hd
      · exact hkeeps _ (.ofCache fun cache : MapCache =>
          cache.entries.find? key = b.cache.entries.find? key)
    rw [hstate]
    exact hread c (congrArg (·.entries.find? key) hcache)

/-- A read that consults an entry which does not decode fails, names the key and leaves every
entry. -/
theorem serve_of_unreadable (hconsulted : r.consulted b = some key) {bytes : Bytes}
    (hentry : b.cache.entries.find? key = some bytes) {e : Json.DecodeError}
    (hbytes : Json.decodeMessages bytes = .error e) :
    (r.serve b).answer = .error (.error (.unreadableEntry key e.text)) ∧
      (r.serve b).state.cache.entries = b.cache.entries := by
  obtain ⟨c, hit, read, hcache, -, hanswer, hstate⟩ := exists_readThrough hconsulted
  have hfound : (Cache.get key c.cache).answer = .ok (some bytes) := by
    rw [hcache, ← hentry]
    exact MapCache.answer_get key b.cache
  have hstop := Board.readThrough_of_refused hfound hbytes hit read
  have hlook : Preserves (fun d : Board σ MapCache => d.cache.entries = b.cache.entries)
      (Board.cached key) :=
    Board.preserves_cached fun d hd => (MapCache.entries_get key d.cache).trans hd
  constructor
  · rw [hanswer, hstop.1]
    rfl
  · rw [hstate, hstop.2]
    exact hlook c (congrArg (·.entries) hcache)

end BoardRequest

/-! ## Two boards -/

namespace Board

variable {b c : Board (ObservedStore MemoryStore) MapCache} {S : String → Prop} {r : BoardRequest}

/-- The stores are twins, and the caches have the same under every key with `S`. -/
structure Tracks (S : String → Prop) (b c : Board (ObservedStore MemoryStore) MapCache) : Prop where
  twin : Twin (fun _ => true) b c
  entries : ∀ key, S key → c.cache.entries.find? key = b.cache.entries.find? key

/-- What runs in step on the stores and leaves the caches alone runs in step. -/
theorem inStep_tracks {α : Type} {a a' : Action (Board (ObservedStore MemoryStore) MapCache) α}
    (ha : InStep (Twin fun _ => true) a a') (hkeeps : ∀ cache, Preserves (·.cache = cache) a)
    (hkeeps' : ∀ cache, Preserves (·.cache = cache) a') : InStep (Tracks S) a a' := by
  intro b c h
  obtain ⟨hanswer, hstate⟩ := ha b c h.twin
  refine ⟨hanswer, hstate, ?_⟩
  rw [hkeeps b.cache b rfl, hkeeps' c.cache c rfl]
  exact h.entries

theorem inStep_get {key : String} (hkey : S key) :
    InStep (Tracks S) (atCache (Cache.get key)) (atCache (Cache.get key)) := by
  intro b c h
  refine ⟨?_, ⟨h.twin.store, h.twin.index⟩, ?_⟩
  · show (MapCache.get key b.cache).answer = (MapCache.get key c.cache).answer
    rw [MapCache.answer_get, MapCache.answer_get, h.entries key hkey]
  · intro other hother
    show (Cache.get key c.cache).state.entries.find? other
      = (Cache.get key b.cache).state.entries.find? other
    rw [MapCache.entries_get, MapCache.entries_get, h.entries other hother]

theorem inStep_set (key : String) (bytes : Bytes) (cost : Cost) :
    InStep (Tracks S) (atCache (Cache.set key bytes cost))
      (atCache (Cache.set key bytes cost)) := by
  intro b c h
  refine ⟨rfl, ⟨h.twin.store, h.twin.index⟩, ?_⟩
  intro other hother
  show (c.cache.entries.insert key bytes).find? other
    = (b.cache.entries.insert key bytes).find? other
  rw [SortedMap.find?_insert, SortedMap.find?_insert, h.entries other hother]

theorem inStep_all_tracks (byTimestamp : Bool) :
    InStep (Tracks S) (all byTimestamp) (all byTimestamp) :=
  inStep_tracks (inStep_all (fun _ => rfl) byTimestamp)
    (fun cache => preserves_all (.ofCache (· = cache)) byTimestamp)
    fun cache => preserves_all (.ofCache (· = cache)) byTimestamp

theorem inStep_count_tracks : InStep (Tracks S) count count :=
  inStep_tracks (inStep_count fun _ => rfl) (fun _ _ hb => hb) fun _ _ hb => hb

theorem inStep_pageRead (number size : Int64) (n : Nat) :
    InStep (Tracks S) (pageRead number size n) (pageRead number size n) := by
  have hrange : ∀ low high,
      Action.InStepUpTo (fun ms ms' => Message.sortById ms = Message.sortById ms')
        (Twin fun _ => true)
        (range low high : Action (Board (ObservedStore MemoryStore) MapCache) (List Message))
        (range low high : Action (Board (ObservedStore MemoryStore) MapCache) (List Message)) :=
    fun low high => (inStep_range (fun _ => rfl) low high).upTo.mono fun _ _ => congrArg _
  have hcounter : InStep (Twin fun _ => true)
      (atStore Store.counter : Action (Board (ObservedStore MemoryStore) MapCache) Int64)
      (atStore Store.counter : Action (Board (ObservedStore MemoryStore) MapCache) Int64) :=
    inStep_atStore (ObservedStore.inStep_counter rfl)
  have hkeeps : ∀ cache, Preserves
      (fun d : Board (ObservedStore MemoryStore) MapCache => d.cache = cache)
      (pageRead number size n) :=
    fun cache => preserves_pageRead (.ofCache (· = cache)) number size n
  refine inStep_tracks ?_ hkeeps hkeeps
  unfold pageRead
  split
  · exact inStep_all (fun _ => rfl) false
  · apply (Action.inStep_orFault _).bind
    intro window
    apply (Action.inStep_report _).bind
    intro _
    exact inStep_readWindow_of_range hrange hcounter size window

/-- A request consults the same key on both boards. -/
theorem Twin.consulted (h : Twin (fun _ => true) b c) (r : BoardRequest) :
    r.consulted c = r.consulted b := by
  cases r with
  | page number size =>
    have hcount : (count b).answer = (count c).answer := (inStep_count (fun _ => rfl) b c h).1
    rw [BoardRequest.consulted, BoardRequest.consulted, hcount]
  | _ => rfl

/-- A read through an entry that both caches have, or neither, runs in step. -/
theorem Tracks.serve_consulted (h : Tracks S b c) {key : String}
    (hconsulted : r.consulted b = some key) (hkey : S key) :
    (r.serve b).answer = (r.serve c).answer ∧ Tracks S (r.serve b).state (r.serve c).state := by
  rcases BoardRequest.consulted_eq_some hconsulted with
    ⟨rfl, byTimestamp, rfl⟩ | ⟨number, size, n, rfl, hvalid, hcount, rfl⟩
  · have hlist : InStep (Tracks S) (allCached byTimestamp) (allCached byTimestamp) :=
      inStep_readThrough (inStep_get hkey) (inStep_set _) (inStep_all_tracks byTimestamp)
    exact (hlist.bind fun _ => Action.inStep_pure _) b c h
  · -- Both count, and go on from there.
    obtain ⟨hcounts, htracks⟩ := inStep_count_tracks b c h
    have hpage := page_of_count hvalid hcount
    have hpage' := page_of_count hvalid (hcounts.symm.trans hcount)
    have hread : InStep (Tracks S)
        (readThrough (pageEntry number size n) (pageHit number size n) (pageRead number size n))
        (readThrough (pageEntry number size n) (pageHit number size n) (pageRead number size n)) :=
      inStep_readThrough (inStep_get hkey) (inStep_set _) (inStep_pageRead number size n)
    obtain ⟨hanswer, hstate⟩ := hread _ _ htracks
    rw [← hpage.1, ← hpage'.1] at hanswer
    rw [← hpage.2, ← hpage'.2] at hstate
    constructor
    · rw [BoardRequest.answer_serve_page, BoardRequest.answer_serve_page, hanswer]
    · rw [BoardRequest.state_serve_page, BoardRequest.state_serve_page]
      exact hstate

/-- A read leaves boards whose caches have the same under the same keys, whatever it consults. -/
theorem Tracks.serve_read (h : Tracks S b c) (hspares : b.store.SparesReads fun _ => true)
    (hr : r.reads = true) : Tracks S (r.serve b).state (r.serve c).state where
  twin := (BoardRequest.twin_serve (fun _ _ => rfl) hspares h.twin r).1
  entries := by
    intro key hkey
    by_cases hconsulted : r.consulted b = some key
    · exact (h.serve_consulted hconsulted hkey).2.entries key hkey
    · -- Neither read touches the entry.
      have hconsulted' : r.consulted c ≠ some key := by rwa [h.twin.consulted]
      rw [BoardRequest.find?_serve hr hconsulted, BoardRequest.find?_serve hr hconsulted',
        h.entries key hkey]

end Board

namespace BoardRequest

/-- Whether a request reads or writes messages, and does not ask for the connection alone. -/
def concernsMessages : BoardRequest → Bool
  | awaitReady _ | isConnected | close => false
  | _ => true

/-- Whether a request drops the cache of a board: a delete does, and a post that gets an id. -/
def clears {γ : Type} (b : Board (ObservedStore MemoryStore) γ) : BoardRequest → Bool
  | delete _ => true
  | post _ => (Store.increment 1 b.store).answer.isOk
  | _ => false

end BoardRequest

namespace Board

variable {b c : Board (ObservedStore MemoryStore) MapCache} {S : String → Prop} {r : BoardRequest}

/-- A request that consults nothing, or an entry that both caches have or neither, is answered
alike. -/
theorem Tracks.answer_serve (h : Tracks S b c) (hspares : b.store.SparesReads fun _ => true)
    (hr : r.concernsMessages = true) (hS : ∀ key, r.consulted b = some key → S key) :
    (r.serve b).answer = (r.serve c).answer := by
  cases hconsulted : r.consulted b with
  | some key => exact (h.serve_consulted hconsulted (hS key hconsulted)).1
  | none =>
    cases r with
    | post m => exact (BoardRequest.twin_serve (fun _ _ => rfl) hspares h.twin _).2 rfl
    | delete id => exact (BoardRequest.twin_serve (fun _ _ => rfl) hspares h.twin _).2 rfl
    | all byTimestamp =>
      exact (((inStep_all_tracks byTimestamp).bind fun _ => Action.inStep_pure _) b c h).1
    | allCached byTimestamp => cases hconsulted
    | range low high =>
      exact (((inStep_range (fun _ => rfl) low high).bind fun _ => Action.inStep_pure _) b c
        h.twin).1
    | page number size =>
      have hcount : (count b).answer = (count c).answer := (inStep_count_tracks b c h).1
      have hpage : (page number size b).answer = (page number size c).answer := by
        by_cases hvalid : number < 1 ∨ size < 1
        · rw [page_of_invalid hvalid]
          rfl
        · -- A page that consults nothing is not counted.
          rw [page_of_valid hvalid]
          cases hcounted : (count b).answer with
          | ok n =>
            exact nomatch (BoardRequest.consulted_page hvalid hcounted).symm.trans hconsulted
          | error why =>
            rw [(Action.bind_of_error hcounted).1,
              (Action.bind_of_error (hcount.symm.trans hcounted)).1]
      rw [BoardRequest.answer_serve_page, BoardRequest.answer_serve_page, hpage]
    | count => exact ((inStep_count_tracks.bind fun _ => Action.inStep_pure _) b c h).1
    | awaitReady timeout => exact nomatch hr
    | isConnected => exact nomatch hr
    | close => exact nomatch hr

/-! ### Writes on both boards -/

theorem emptied_of_clears (hclears : r.clears b = true) :
    TalliedCache.Emptied (r.serve b).state.cache := by
  cases r with
  | post m =>
    rw [BoardRequest.state_serve_post]
    cases hincrement : (Store.increment 1 b.store).answer with
    | ok id => exact b.atomic.issued m id hincrement
    | error why =>
      rw [BoardRequest.clears, hincrement] at hclears
      exact nomatch hclears
  | delete id =>
    rw [BoardRequest.state_serve_delete]
    exact b.atomic.delete id
  | _ => exact nomatch hclears

/-- A write that does not drop the cache leaves it as it is. -/
theorem cache_serve_of_write (hr : r.reads = false) (hclears : r.clears b = false) :
    (r.serve b).state.cache = b.cache := by
  cases r with
  | post m =>
    rw [BoardRequest.state_serve_post]
    cases hincrement : (Store.increment 1 b.store).answer with
    | ok id =>
      rw [BoardRequest.clears, hincrement] at hclears
      exact nomatch hclears
    | error why => exact (b.atomic.unissued m why hincrement).2.2
  | delete id => exact nomatch hclears
  | _ => exact nomatch hr

theorem Twin.clears (h : Twin (fun _ => true) b c) (r : BoardRequest) :
    r.clears c = r.clears b := by
  cases r with
  | post m =>
    have hincrement : (Store.increment 1 b.store).answer = (Store.increment 1 c.store).answer :=
      (ObservedStore.inStep_increment rfl 1 b.store c.store h.store).1
    rw [BoardRequest.clears, BoardRequest.clears, hincrement]
  | _ => rfl

/-! ### A planted entry -/

/-- The second board makes the moves of the first, which has other bytes under a key until it is
`healed`. -/
structure Follows (key : String) (bytes : Bytes) (healed : Bool)
    (b c : Board (ObservedStore MemoryStore) MapCache) : Prop where
  tracks : Tracks (fun other => healed = true ∨ other ≠ key) b c
  spares : b.store.SparesReads fun _ => true
  entry : healed = false → b.cache.entries.find? key = some bytes

variable {key : String} {bytes : Bytes} {healed : Bool}

theorem Follows.serve (h : Follows key bytes healed b c)
    (hbytes : ∃ e, Json.decodeMessages bytes = .error e) (r : BoardRequest) :
    Follows key bytes (healed || r.clears b) (r.serve b).state (r.serve c).state := by
  have htwin := (BoardRequest.twin_serve (fun _ _ => rfl) h.spares h.tracks.twin r).1
  have hspares : (r.serve b).state.store.SparesReads fun _ => true :=
    BoardRequest.preserves_serve_of_writes
      (.ofStore ObservedStore.callsKeep_sparesReads.toReadsKeep)
      (.ofStore (ObservedStore.SparesReads fun _ => true))
      (.ofStore ObservedStore.callsKeep_sparesReads) r b h.spares
  cases hr : r.reads with
  | true =>
    have hclears : r.clears b = false := by
      cases r with
      | post m => cases hr
      | delete id => cases hr
      | _ => rfl
    rw [hclears, Bool.or_false]
    refine ⟨h.tracks.serve_read h.spares hr, hspares, ?_⟩
    intro hhealed
    have hentry := h.entry hhealed
    by_cases hconsulted : r.consulted b = some key
    · obtain ⟨e, hrefused⟩ := hbytes
      rw [(BoardRequest.serve_of_unreadable hconsulted hentry hrefused).2]
      exact hentry
    · rw [BoardRequest.find?_serve hr hconsulted]
      exact hentry
  | false =>
    cases hclears : r.clears b with
    | true =>
      -- Both caches are empty.
      have hclears' : r.clears c = true := by rwa [h.tracks.twin.clears]
      rw [Bool.or_true]
      refine ⟨⟨htwin, ?_⟩, hspares, nofun⟩
      intro other _
      rw [MapCache.find?_of_emptied (emptied_of_clears hclears),
        MapCache.find?_of_emptied (emptied_of_clears hclears')]
    | false =>
      have hclears' : r.clears c = false := by rwa [h.tracks.twin.clears]
      rw [Bool.or_false]
      refine ⟨⟨htwin, ?_⟩, hspares, ?_⟩
      · rw [cache_serve_of_write hr hclears, cache_serve_of_write hr hclears']
        exact h.tracks.entries
      · rw [cache_serve_of_write hr hclears]
        exact h.entry

/-- What happens to the store from outside happens to both. -/
theorem Follows.outside (h : Follows key bytes healed b c)
    {a : Action (ObservedStore MemoryStore) Unit}
    (ha : InStep (ObservedStore.Twin fun _ => true) a a)
    (hspares : Preserves (ObservedStore.SparesReads fun _ => true) a) :
    Follows key bytes healed (atStore a b).state (atStore a c).state :=
  ⟨⟨(inStep_atStore ha b c h.tracks.twin).2, h.tracks.entries⟩, hspares b.store h.spares, h.entry⟩

end Board

/-! ## What the entry does and what it leaves -/

namespace BoardRequest

/-- Whether a request is a read that a store which serves its calls is sure to answer: a page is
valid, and a word numbers the pages. -/
def Answerable (total : Nat) : BoardRequest → Prop
  | all _ | allCached _ | range .. | count => True
  | page number size => (1 ≤ number ∧ 1 ≤ size) ∧ (total : Int) / size.toInt < Word.greatest
  | _ => False

end BoardRequest

namespace Board

variable {b c : Board (ObservedStore MemoryStore) MapCache}

/-- What bytes do that stand under a key of the cache of `b` and do not decode, as against `c`,
which made the same moves without them. -/
structure Contained (key : String) (bytes : Bytes)
    (b c : Board (ObservedStore MemoryStore) MapCache) : Prop where
  /-- They are still there. -/
  entry : b.cache.entries.find? key = some bytes
  data : SameData c b
  /-- What consults the key fails and names it, and changes neither data nor entries. -/
  fails : ∀ r : BoardRequest, r.consulted b = some key →
    Unreadable key bytes (r.serve b).answer ∧ SameData b (r.serve b).state ∧
      (r.serve b).state.cache.entries = b.cache.entries
  /-- Whatever else concerns messages is answered alike. -/
  spares : ∀ r : BoardRequest, r.concernsMessages = true → r.consulted b ≠ some key →
    (r.serve b).answer = (r.serve c).answer
  /-- The key of the full list is consulted by full lists, and by pages that hold all messages. -/
  list : ∀ r : BoardRequest, r.consulted b = some Page.allMessagesKey ↔
    (∃ byTimestamp, r = .allCached byTimestamp) ∨
      ∃ number size, r = .page number size ∧ (1 ≤ number ∧ 1 ≤ size) ∧
        (b.store.inner.records.size : Int) ≤ size.toInt ∧ ∃ n, (count b).answer = .ok n
  /-- The key of a page is consulted by that page only, while it does not hold all messages. -/
  page : ∀ (r : BoardRequest) (number size : Int64), r.consulted b = some (Page.key number size) ↔
    r = .page number size ∧ (1 ≤ number ∧ 1 ≤ size) ∧
      size.toInt < b.store.inner.records.size ∧ ∃ n, (count b).answer = .ok n

/-- What is left of such bytes once the cache was dropped: nothing, and all reads succeed where the
store serves them. -/
structure Healed (b c : Board (ObservedStore MemoryStore) MapCache) : Prop where
  data : SameData c b
  entries : ∀ key, b.cache.entries.find? key = c.cache.entries.find? key
  answers : ∀ r : BoardRequest, r.concernsMessages = true →
    (r.serve b).answer = (r.serve c).answer
  succeeds : b.store.inner.reachable = true → b.store.inner.failing = false →
    ∀ r : BoardRequest, r.Answerable b.store.inner.records.size →
      ∃ reply, (r.serve b).answer = .ok reply

variable {key : String} {bytes : Bytes} {log : List Message} {issued : Int} {timed : Bool}

/-- A board whose cache has the same as that of a twin keeps the same log. -/
theorem Tracks.keeps (h : Tracks (fun _ => True) b c) (hkeeps : Keeps c timed log issued) :
    Keeps b timed log issued where
  settled := ⟨h.twin.store.inner.idle, h.twin.index.symm.trans hkeeps.settled.index,
    h.twin.store.inOrder⟩
  store := hkeeps.store.congr h.twin.store.inner.data.records.symm
    h.twin.store.inner.data.counter.symm
  cache :=
    { balanced := trivial
      decodes := by
        intro key bytes hentry
        apply hkeeps.cache.decodes key bytes
        have hfound := h.entries key trivial
        rw [SortedMap.find?_of_mem hentry] at hfound
        exact SortedMap.mem_of_findEntry hfound }

/-- A store that serves its reads answers all of them. -/
theorem exists_reply (h : Keeps b true log issued)
    (hserves : ∀ method : StoreMethod, method.writes = false → b.store.Serves method)
    {r : BoardRequest} (hr : r.Answerable b.store.inner.records.size) :
    ∃ reply, (r.serve b).answer = .ok reply := by
  have hreply : ∀ {α : Type} {a : Action (Board (ObservedStore MemoryStore) MapCache) α}
      {f : α → BoardReply} {Q : α → Board (ObservedStore MemoryStore) MapCache → Prop}
      {E : Stop → Board (ObservedStore MemoryStore) MapCache → Prop}, (a b).Satisfies Q E →
      (∀ why d, ¬ E why d) → ∃ reply, ((do return f (← a)) b).answer = .ok reply := by
    intro α a f Q E ha hnever
    obtain ⟨x, hanswer, -⟩ := ha.answers hnever
    exact ⟨f x, (Action.answer_bind_pure ..).trans (congrArg (Except.map f) hanswer)⟩
  have hunrefused : ∀ {call : StoreCall} {why : Stop}, call.method.writes = false →
      ¬ b.store.Refuses call why :=
    fun hreads hrefuses => hrefuses.not_serves (hserves _ hreads)
  -- An entry costs nothing, and one offer never costs more than a word.
  have hfree : ∀ ms, ¬ UInt64.size ≤ (Cache.stats b.cache).cost + (price ms).toNat := by
    intro ms hcost
    have hword : (price ms).toNat < UInt64.size := (price ms).toNat_lt
    have hnothing : (Cache.stats b.cache).cost = 0 := rfl
    omega
  cases r with
  | all byTimestamp =>
    exact hreply (satisfies_all h.settled byTimestamp) fun _ _ hstop => hunrefused rfl hstop.1
  | allCached byTimestamp =>
    refine hreply (satisfies_fullList h byTimestamp fun _ => rfl) ?_
    rintro why d ⟨hrefuses | hcost, -⟩
    · exact hunrefused rfl hrefuses
    · exact hfree _ hcost.2
  | range low high =>
    exact hreply (satisfies_range h.settled low high) fun _ _ hstop => hunrefused rfl hstop.1
  | page number size =>
    obtain ⟨⟨hnumber, hsize⟩, hcountable⟩ := hr
    rw [Int64.le_iff_toInt_le, Word.toInt_one] at hnumber hsize
    refine hreply (satisfies_page h number size) ?_
    rintro why d ⟨hstop, -⟩
    cases hstop with
    | invalid hinvalid => exact hinvalid ⟨hnumber, hsize⟩
    | refused hrefuses =>
      have hreads : ∀ method ∈ pageMethods, method.writes = false := by decide
      exact not_refusesPage (fun method hmethod => hserves method (hreads method hmethod)) hrefuses
    | uncountable huncountable =>
      rw [h.store.size] at hcountable
      omega
    | crowded hms hcost => exact hfree _ hcost
  | count => exact hreply (satisfies_count h.settled) fun _ _ hstop => hunrefused rfl hstop.1
  | _ => exact hr.elim

/-- While the bytes are there they are contained. -/
theorem Follows.contained (h : Follows key bytes false b c)
    (hbytes : ∃ e, Json.decodeMessages bytes = .error e) (hkeeps : Keeps c timed log issued) :
    Contained key bytes b c := by
  have hdata := h.tracks.twin.store.inner.data
  have hsettled : Settled b := ⟨h.tracks.twin.store.inner.idle,
    h.tracks.twin.index.symm.trans hkeeps.settled.index, h.tracks.twin.store.inOrder⟩
  have hsize : (b.store.inner.records.size : Int) ≤ Word.greatest := by
    have hlength := hkeeps.store.length_le
    have hgreatest := hkeeps.store.counts.le_greatest
    rw [← hdata.records, hkeeps.store.size]
    omega
  constructor
  · exact h.entry rfl
  · exact ⟨hdata.records.symm, hdata.counter.symm⟩
  · intro r hconsulted
    obtain ⟨e, hrefused⟩ := hbytes
    obtain ⟨hanswer, hentries⟩ :=
      BoardRequest.serve_of_unreadable hconsulted (h.entry rfl) hrefused
    have hr : r.reads = true := by
      cases r with
      | post m => cases hconsulted
      | delete id => cases hconsulted
      | _ => rfl
    exact ⟨⟨e, hrefused, hanswer⟩, b.atomic.reads r hr, hentries⟩
  · intro r hr hconsulted
    apply h.tracks.answer_serve h.spares hr
    intro other hother
    refine .inr ?_
    rintro rfl
    exact hconsulted hother
  · exact fun r => BoardRequest.consulted_list_iff hsettled hsize
  · exact fun r number size => BoardRequest.consulted_page_iff hsettled hsize

/-- Once the cache was dropped nothing is left of them. -/
theorem Follows.isHealed (h : Follows key bytes true b c) (hkeeps : Keeps c true log issued) :
    Healed b c := by
  have hdata := h.tracks.twin.store.inner.data
  have htracks : Tracks (fun _ => True) b c :=
    ⟨h.tracks.twin, fun other _ => h.tracks.entries other (.inl rfl)⟩
  constructor
  · exact ⟨hdata.records.symm, hdata.counter.symm⟩
  · exact fun other => (htracks.entries other trivial).symm
  · exact fun r hr => htracks.answer_serve h.spares hr fun _ _ => trivial
  · intro hreachable hworking r hr
    refine exists_reply (htracks.keeps hkeeps) ?_ hr
    exact fun method hreads => ⟨hreachable, hworking, h.spares.spared rfl hreads⟩

end Board

/-! ## Runs -/

namespace Move

variable {γ : Type} [Cache γ] [LawfulCache γ] {key : String} {bytes : Bytes} {healed : Bool}
  {b c : Board (ObservedStore MemoryStore) MapCache}

/-- Whether a move leaves the cache to the board and lets no read go wrong. -/
def plain : Move γ → Bool
  | mishap method .. => method.writes
  | tune _ => false
  | _ => true

/-- Whether a move drops the cache of a board. -/
def clears (b : Board (ObservedStore MemoryStore) γ) : Move γ → Bool
  | request r => r.clears b
  | _ => false

/-- A move of both boards. -/
theorem follows_perform (h : Board.Follows key bytes healed b c)
    (hbytes : ∃ e, Json.decodeMessages bytes = .error e) {m : Move MapCache}
    (hm : m.plain = true) :
    Board.Follows key bytes (healed || m.clears b) (m.perform b).state (m.perform c).state := by
  have hinside : ∀ {a : Action MemoryStore Unit}, InStep MemoryStore.Twin a a →
      Board.Follows key bytes (healed || false) (Board.atStore (ObservedStore.inside a) b).state
        (Board.atStore (ObservedStore.inside a) c).state := by
    intro a ha
    rw [Bool.or_false]
    exact h.outside (ObservedStore.inStep_inside ha) fun _ hs => hs
  cases m with
  | request r => exact h.serve hbytes r
  | connectFirst =>
    rw [state_perform_connectFirst, state_perform_connectFirst]
    exact hinside MemoryStore.inStep_connectFirst
  | setReachable on => exact hinside (MemoryStore.inStep_setReachable on)
  | setFailing on => exact hinside (MemoryStore.inStep_setFailing on)
  | mishap method m passed =>
    have hclears : (mishap method m passed : Move MapCache).clears b = false := rfl
    rw [hclears, Bool.or_false]
    refine h.outside (ObservedStore.inStep_addMishap method m passed) ?_
    -- Only a write is to go wrong.
    intro s hs m' hm'
    rcases ObservedStore.mem_addMishap (List.mem_filter.mp hm').1 with hold | hmethod
    · exact hs m' (List.mem_filter.mpr ⟨hold, rfl⟩)
    · rw [hmethod]
      exact hm
  | tune tuning => exact nomatch hm

end Move

namespace History

variable {γ : Type} [Cache γ] [LawfulCache γ] {key : String} {bytes : Bytes} {healed : Bool}
  {h p : History MapCache} {moves : List (Move MapCache)}

/-- Whether a run drops the cache. -/
def clears (h : History γ) : List (Move γ) → Bool
  | [] => false
  | m :: moves => m.clears h.board || (h.next m).clears moves

/-- The board with bytes under a key of its cache. -/
def plant (key : String) (bytes : Bytes) (h : History MapCache) : History MapCache :=
  { h with board := { h.board with cache := h.board.cache.insertRaw key bytes } }

theorem follows_play (hfollows : Board.Follows key bytes healed p.board h.board)
    (hbytes : ∃ e, Json.decodeMessages bytes = .error e) (hmoves : ∀ m ∈ moves, m.plain = true) :
    Board.Follows key bytes (healed || p.clears moves) (p.play moves).board
      (h.play moves).board := by
  -- Whether the bytes are gone changes from move to move, as do the boards.
  induction moves generalizing healed h p with
  | nil =>
    rw [clears, Bool.or_false]
    exact hfollows
  | cons m moves ih =>
    have hnext := Move.follows_perform hfollows hbytes (hmoves m List.mem_cons_self)
    rw [clears, ← Bool.or_assoc]
    exact ih (h := h.next m) (p := p.next m) hnext
      fun m' hm' => hmoves m' (List.mem_cons_of_mem m hm')

/-- Bytes that do not decode, put into the cache after any run, are contained in every further run
that does not drop the cache; one that does leaves nothing of them. -/
theorem contains_of_run (reachable : Bool) (key : String) {past moves : List (Move MapCache)}
    (hpast : ∀ m ∈ past, m.plain = true) (hmoves : ∀ m ∈ moves, m.plain = true)
    (hbytes : ∃ e, Json.decodeMessages bytes = .error e) :
    let h := (opened reachable {}).play past
    let p := h.plant key bytes
    (p.clears moves = false →
      Board.Contained key bytes (p.play moves).board (h.play moves).board) ∧
    (p.clears moves = true → Board.Healed (p.play moves).board (h.play moves).board) := by
  intro h p
  obtain ⟨issued, hkeeps⟩ := keeps_run MapCache.isEmpty_new reachable past
  obtain ⟨issued', hkeeps'⟩ := keeps_play hkeeps moves fun _ _ _ => rfl
  -- No mishap waits for a read after the first run either.
  have hspares : h.board.store.SparesReads fun _ => true := by
    have hopened : Board.Follows key bytes true (opened reachable ({} : MapCache)).board
        (opened reachable ({} : MapCache)).board :=
      ⟨⟨⟨.refl rfl fun _ _ => rfl, rfl⟩, fun _ _ => rfl⟩, fun m hm => absurd hm List.not_mem_nil,
        nofun⟩
    exact (follows_play hopened hbytes hpast).spares
  have hplanted : Board.Follows key bytes false p.board h.board := by
    refine ⟨⟨⟨.refl hkeeps.settled.idle hkeeps.settled.inOrder, rfl⟩, ?_⟩, hspares, ?_⟩
    · rintro other (hfalse | hother)
      · exact nomatch hfalse
      · exact ((SortedMap.find?_insert h.board.cache.entries key other bytes).trans
          (if_neg (Ne.symm hother))).symm
    · intro _
      exact (SortedMap.find?_insert h.board.cache.entries key key bytes).trans (if_pos rfl)
  have hfollows := follows_play hplanted hbytes hmoves
  constructor
  · intro hclears
    rw [hclears] at hfollows
    exact hfollows.contained hbytes hkeeps'
  · intro hclears
    rw [hclears] at hfollows
    exact hfollows.isHealed hkeeps'

/-- Two posts. -/
def cutPast : List (Move MapCache) :=
  [.request (.post { author := "a", text := "1", timestamp := 10 }),
    .request (.post { author := "b", text := "2", timestamp := 20 })]

/-- The first page of one message, without its last byte. -/
def cutBytes : Bytes :=
  (Json.encodeMessages [{ id := 1, author := "a", text := "1", timestamp := 10 }]).dropLast

/-- The board after the posts, with those bytes as the page. -/
def cutHistory : History MapCache :=
  ((opened true ({} : MapCache)).play cutPast).plant (Page.key 1 1) cutBytes

/-- Reads, and a post that an outage turns away. -/
def idleMoves : List (Move MapCache) :=
  [.request (.page 1 1), .request (.page 2 1), .setReachable false,
    .request (.post { author := "c", text := "3", timestamp := 30 }), .setReachable true,
    .request (.allCached false)]

/-- The same, and a post that gets an id and is not stored. -/
def healingMoves : List (Move MapCache) :=
  idleMoves ++ [.mishap .put .notConnected 0,
    .request (.post { author := "d", text := "4", timestamp := 40 })]

/-- The page fails until a post drops the cache, although that post fails too. -/
theorem contains_of_run_cut :
    ((∀ m ∈ cutPast, m.plain = true) ∧ (∀ m ∈ healingMoves, m.plain = true) ∧
      (∃ e, Json.decodeMessages cutBytes = .error e) ∧ cutHistory.clears idleMoves = false ∧
      cutHistory.clears healingMoves = true) ∧
    Board.Unreadable (Page.key 1 1) cutBytes
      ((BoardRequest.page 1 1).serve (cutHistory.play idleMoves).board).answer ∧
    ∃ reply, ((BoardRequest.page 1 1).serve (cutHistory.play healingMoves).board).answer
      = .ok reply := by
  have hpast : ∀ m ∈ cutPast, m.plain = true := by decide
  have hhealing : ∀ m ∈ healingMoves, m.plain = true := by decide
  have hidle : ∀ m ∈ idleMoves, m.plain = true := by decide
  have hbytes : ∃ e, Json.decodeMessages cutBytes = .error e := (Json.Damaged.dropLast _).refused
  have hkept : cutHistory.clears idleMoves = false := by decide +kernel
  have hdropped : cutHistory.clears healingMoves = true := by decide +kernel
  have hcontained := (contains_of_run true (Page.key 1 1) hpast hidle hbytes).1 hkept
  have hhealed := (contains_of_run true (Page.key 1 1) hpast hhealing hbytes).2 hdropped
  have hanswerable : (BoardRequest.page 1 1).Answerable
      (cutHistory.play healingMoves).board.store.inner.records.size :=
    ⟨by decide, by decide +kernel⟩
  refine ⟨⟨hpast, hhealing, hbytes, hkept, hdropped⟩, ?_, ?_⟩
  · exact (hcontained.fails (.page 1 1) (by decide +kernel)).1
  · exact hhealed.succeeds (by decide +kernel) (by decide +kernel) (.page 1 1) hanswerable

end History

end Guestbook
