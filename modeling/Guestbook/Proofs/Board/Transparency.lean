import Guestbook.Proofs.Board.Run
import Guestbook.Proofs.Board.Twins
import Guestbook.Proofs.Cache.Declining

/-!
# What a cache changes

A board answers the same as one whose cache takes nothing, after the same moves. Their stores are
called at different times, because a hit spares the store a call, and so their connections come and
go at different times. But both keep the same log, and whatever a cache holds is current. The one
thing that a cache changes is that a full list in it is answered even while the store refuses to be
scanned.

## Main definitions
- `Page.answer`: the answer of a page as a matter of the log alone
- `Board.Mirrors`: two boards after the same moves, the second without the use of a cache
- `Board.Alike`, `Board.Transparent`: what the cache of the first one changes

## Main statements
- `Board.answer_allCached_or_hit`: the full list is that of the store, or in the cache
- `Board.answer_page_served`: a page is what the log makes it
- `Board.Mirrors.alike`: one request
- `History.mirrors_play`, `History.transparent_of_run`: every run
-/

namespace Guestbook

/-! ## Pages of a log -/

/-- What a page of a log is answered by a store that serves its calls. -/
def Page.answer (log : List Message) (page size : Int64) : Except Stop (List Message) :=
  if (log.length : Int) ≤ size.toInt then .ok log
  else if log.length / size.toInt < Word.greatest then .ok (contents log page size)
  else .error (.fault .addOverflow)

/-- A log of so many pages does not fit on one of them. -/
theorem Page.answer_of_uncountable {log : List Message} {page size : Int64}
    (hsize : 1 ≤ size.toInt) (h : Word.greatest ≤ log.length / size.toInt) :
    Page.answer log page size = .error (.fault .addOverflow) := by
  have hgreatest := (Int.le_ediv_iff_mul_le (by omega)).mp h
  have hpart : ¬ (log.length : Int) ≤ size.toInt := by
    simp only [Word.greatest] at hgreatest
    omega
  rw [Page.answer, if_neg hpart, if_neg (Int.not_lt.mpr h)]

namespace BoardRequest

/-- Whether a request reads or writes messages. Of the full lists through the cache only the one in
the order of the store counts. -/
def touchesData : BoardRequest → Bool
  | allCached byTimestamp => !byTimestamp
  | awaitReady _ | isConnected | close => false
  | _ => true

/-- Whether a request offers messages of a log to the cache, if it reads them from the store. A page
with a number beyond a word is not read. -/
def offers (log : List Message) : BoardRequest → Bool
  | allCached _ => true
  | page _ size => log.length / size.toInt < Word.greatest
  | _ => false

end BoardRequest

namespace Board

section OneBoard

variable {γ : Type} [Cache γ] {b : Board (ObservedStore MemoryStore) γ} {log : List Message}
  {issued : Int}

/-- A request stops because the costs that the cache holds and those of the messages it is offered
are beyond a word. -/
structure Crowded (b : Board (ObservedStore MemoryStore) γ) (r : BoardRequest) : Prop where
  offers : r.offers b.store.inner.messages = true
  stops : (r.serve b).answer = .error (.fault .addOverflow)
  costs : ∃ ms, ms.Sublist b.store.inner.messages ∧
    UInt64.size ≤ (Cache.stats b.cache).cost + (price ms).toNat

/-- A cache that costs nothing is never crowded. -/
theorem not_crowded_of_cost (hcost : (Cache.stats b.cache).cost = 0) (r : BoardRequest) :
    ¬ b.Crowded r := by
  intro hcrowded
  obtain ⟨ms, -, hcosts⟩ := hcrowded.costs
  have hword : (price ms).toNat < UInt64.size := (price ms).toNat_lt
  omega

/-- Nor is one that has room for the messages of the board, as it has when all of this lies in
memory. -/
theorem not_crowded_of_hasRoom (hroom : b.HasRoom) (r : BoardRequest) : ¬ b.Crowded r := by
  intro hcrowded
  obtain ⟨ms, hms, hcosts⟩ := hcrowded.costs
  have hprice := price_le ms
  have hencoding := Json.length_encodeMessages_le hms
  rw [HasRoom] at hroom
  omega

omit [Cache γ] in
/-- A store that answers a count serves every operation, if no mishap waits. -/
theorem serves_of_count (hidle : b.store.inner.gate.connecting = false)
    (hspared : b.store.mishaps = []) {n : Nat} (hcount : (count b).answer = .ok n)
    (method : StoreMethod) : b.store.Serves method := by
  have hcountAll : (Store.countAll b.store).Satisfies
      (fun _ _ => b.store.inner.reachable = true ∧ b.store.inner.failing = false)
      fun _ _ => True :=
    ObservedStore.satisfies_observe_any
      ((MemoryStore.satisfies_countAll hidle).imp (fun _ _ h => h.1.1) fun _ _ _ => trivial)
      fun _ => trivial
  obtain ⟨hreachable, hworking⟩ := hcountAll.of_ok hcount
  exact .of_no_mishaps hreachable hworking hspared method

variable [LawfulCache γ]

/-- The full list through the cache is that of the store, unless the cache holds it. -/
theorem satisfies_allCached_or_hit (h : Keeps b false log issued) :
    (allCached false b).Satisfies
      (fun ms _ => (all false b).answer = .ok ms ∨
        ∃ bytes, b.found Page.allMessagesKey = .ok (some bytes))
      fun why _ => (all false b).answer = .error why ∨
        why = .fault .addOverflow ∧
          UInt64.size ≤ (Cache.stats b.cache).cost + (price log).toNat := by
  have hall : ∀ cache : γ, (all false { b with cache }).Satisfies
      (fun ms c => (ms = log ∧ (all false b).answer = .ok ms) ∧
        Read { b with cache } c ∧ c.cache = cache)
      fun why c => (all false b).answer = .error why ∧
        Stayed { b with cache } c ∧ c.cache = cache := by
    intro cache
    -- Boards that differ by their caches only are twins, and the caches do not matter to a scan.
    have htwin : Twin (fun _ => true) b { b with cache } :=
      ⟨.refl h.settled.idle h.settled.inOrder, rfl⟩
    have hplain : (all false b).answer = (all false { b with cache }).answer :=
      (inStep_all (fun _ => rfl) false _ _ htwin).1
    apply (satisfies_all (h.settled.withCache cache) false).with_answer.with_stop.imp
    · intro ms c hpost
      obtain ⟨⟨hms, hread⟩, hanswer⟩ := hpost
      exact ⟨⟨hms.trans h.store.messages, hplain.trans hanswer⟩, hread⟩
    · intro why c hpost
      obtain ⟨⟨-, hstayed⟩, hstop⟩ := hpost
      exact ⟨hplain.trans hstop, hstayed⟩
  have hcurrent : ∀ ms, ms = log ∧ (all false b).answer = .ok ms →
      Current false log Page.allMessagesKey ms :=
    fun ms hms => current_allMessagesKey.mpr (.inl hms.1)
  rw [allCached_eq]
  apply (satisfies_readThrough_of_caches h.settled.idle h.cache hall hcurrent).imp
  · intro ms c hpost
    obtain ⟨⟨-, ⟨-, hms⟩ | ⟨bytes, hhit, -⟩⟩, -⟩ := hpost
    · exact .inl hms.2
    · exact .inr ⟨bytes, hhit⟩
  · intro why c hpost
    obtain ⟨hstop | ⟨hwhy, ms, ⟨rfl, -⟩, hcosts⟩, -⟩ := hpost
    · exact .inl hstop
    · exact .inr ⟨hwhy, hcosts⟩

/-- Where the costs of the cache do not stop it, the full list is that of the store, or the cache
holds the log. -/
theorem answer_allCached_or_hit (h : Keeps b false log issued)
    (hroom : ¬ b.Crowded (.allCached false)) :
    (allCached false b).answer = (all false b).answer ∨
      (∃ bytes, b.found Page.allMessagesKey = .ok (some bytes)) ∧
        (allCached false b).answer = .ok log := by
  have hlist := satisfies_allCached_or_hit h
  cases hanswer : (allCached false b).answer with
  | ok ms =>
    rcases hlist.of_ok hanswer with hplain | hhit
    · exact .inl hplain.symm
    · -- What the cache has under the key of the full list is current.
      obtain rfl : ms = log := ((satisfies_fullList h false nofun).of_ok hanswer).1.1.eq_log
      exact .inr ⟨hhit, rfl⟩
  | error why =>
    rcases hlist.of_error hanswer with hplain | ⟨rfl, hcosts⟩
    · exact .inl hplain.symm
    · -- The list was read and offered, so it is its costs that stop it.
      have hlog : log.Sublist b.store.inner.messages := h.store.messages ▸ List.Sublist.refl _
      refine absurd ⟨rfl, ?_, log, hlog, hcosts⟩ hroom
      rw [BoardRequest.answer_serve_allCached, hanswer]
      rfl

/-- A page that the store serves is what the log makes it, unless the costs of the cache stop it. -/
theorem answer_page_served (h : Keeps b false log issued) {page size : Int64}
    (hserves : ∀ method, b.store.Serves method) (hvalid : 1 ≤ page.toInt ∧ 1 ≤ size.toInt)
    (hroom : ¬ b.Crowded (.page page size)) :
    (Board.page page size b).answer = Page.answer log page size := by
  have hpage := satisfies_page h page size
  cases hanswer : (Board.page page size b).answer with
  | ok ms =>
    -- What a page shows is current, whether it was read from the store or found in the cache.
    obtain ⟨hshows, -⟩ := hpage.of_ok hanswer
    by_cases hwhole : (log.length : Int) ≤ size.toInt
    · obtain rfl : ms = log := (hshows.whole hwhole).1.eq_log
      rw [Page.answer, if_pos hwhole]
    · obtain ⟨hpartial, rfl⟩ := hshows.part (Int.not_le.mp hwhole)
      rw [Page.answer, if_neg hwhole, if_pos hpartial.countable]
  | error why =>
    obtain ⟨hstop, -⟩ := hpage.of_error hanswer
    cases hstop with
    | invalid hinvalid => exact absurd hvalid hinvalid
    | refused hrefuses => exact (not_refusesPage (fun method _ => hserves method) hrefuses).elim
    | uncountable huncountable => exact (Page.answer_of_uncountable hvalid.2 huncountable).symm
    | crowded hms hcost =>
      by_cases hcountable : log.length / size.toInt < Word.greatest
      · -- The page was read, so it is its costs that stop it.
        refine absurd ⟨?_, ?_, _, h.store.messages ▸ hms, hcost⟩ hroom
        · rw [h.store.messages]
          exact decide_eq_true hcountable
        · rw [BoardRequest.answer_serve_page, hanswer]
          rfl
      · exact (Page.answer_of_uncountable hvalid.2 (Int.not_lt.mp hcountable)).symm

omit [LawfulCache γ] in
/-- A page that is not valid is refused before any call. -/
theorem answer_page_invalid {page size : Int64} (hinvalid : page < 1 ∨ size < 1) :
    (Board.page page size b).answer = .error (.error (.invalidPage page size)) := by
  rw [page_of_invalid hinvalid]
  rfl

omit [LawfulCache γ] in
/-- A page stops with the count that it begins with. -/
theorem answer_page_of_count {page size : Int64} (hvalid : ¬ (page < 1 ∨ size < 1)) {why : Stop}
    (hcount : (count b).answer = .error why) : (Board.page page size b).answer = .error why := by
  rw [page_of_valid hvalid]
  exact (Action.bind_of_error hcount).1

end OneBoard

/-! ## Two boards -/

section TwoBoards

variable {γ γ' : Type} [Cache γ] [LawfulCache γ] [Cache γ'] [LawfulCache γ'] {P : γ' → Prop}
  {b : Board (ObservedStore MemoryStore) γ} {p : Board (ObservedStore MemoryStore) γ'}
  {log : List Message} {issued : Int} {r : BoardRequest}

/-- Two boards over twin stores that no mishap waits for. The cache of the second one takes
nothing. -/
structure Mirrors (P : γ' → Prop) (b : Board (ObservedStore MemoryStore) γ)
    (p : Board (ObservedStore MemoryStore) γ') : Prop where
  twin : Twin (fun _ => true) b p
  spared : b.store.mishaps = []
  nothing : P p.cache

/-- What a request is answered on a board, as against one whose cache takes nothing. -/
structure Alike (b : Board (ObservedStore MemoryStore) γ)
    (p : Board (ObservedStore MemoryStore) γ') (r : BoardRequest) : Prop where
  answered : ∀ reply, (r.serve p).answer = .ok reply → (r.serve b).answer = .ok reply
  stopped : ∀ why, (r.serve b).answer = .error why → (r.serve p).answer = .error why
  /-- The answers differ only if the full list is in the cache, which answers it as it is, and the
  store refuses to be scanned. -/
  differs : (r.serve b).answer ≠ (r.serve p).answer → r = .allCached false ∧
    (∃ bytes, b.found Page.allMessagesKey = .ok (some bytes)) ∧
    (r.serve b).answer = .ok (.messages b.store.inner.messages) ∧
    ∃ why, (r.serve p).answer = .error why ∧ p.store.Refuses .scanAll why

/-- A cache changes no record, no counter and no answer, but those of the full list that it holds
while the store refuses to be scanned. -/
structure Transparent (b : Board (ObservedStore MemoryStore) γ)
    (p : Board (ObservedStore MemoryStore) γ') : Prop where
  records : p.store.inner.records = b.store.inner.records
  counter : p.store.inner.counterRecord = b.store.inner.counterRecord
  answers : ∀ r : BoardRequest, r.touchesData = true → ¬ b.Crowded r → Alike b p r

omit [LawfulCache γ] [LawfulCache γ'] in
theorem Alike.of_same (h : (r.serve b).answer = (r.serve p).answer) : Alike b p r :=
  ⟨fun _ hp => h.trans hp, fun _ hb => h.symm.trans hb, fun hne => absurd h hne⟩

omit [LawfulCache γ] [LawfulCache γ'] in
/-- The cache answers the full list while the store refuses to be scanned. -/
theorem Alike.of_hit {why : Stop}
    (hhit : ∃ bytes, b.found Page.allMessagesKey = .ok (some bytes))
    (hb : ((BoardRequest.allCached false).serve b).answer = .ok (.messages b.store.inner.messages))
    (hp : ((BoardRequest.allCached false).serve p).answer = .error why)
    (hrefuses : p.store.Refuses .scanAll why) : Alike b p (.allCached false) where
  answered _ hreply := nomatch hp.symm.trans hreply
  stopped _ hwhy := nomatch hb.symm.trans hwhy
  differs _ := ⟨rfl, hhit, hb, why, hp, hrefuses⟩

/-- A cache that takes nothing changes nothing about the board it belongs to: it keeps the same
log. -/
theorem Mirrors.keeps (h : Mirrors P b p) (hnothing : TakesNothing P)
    (hkeeps : Keeps b false log issued) : Keeps p false log issued where
  settled := ⟨h.twin.store.inner.idle', h.twin.index.trans hkeeps.settled.index,
    h.twin.store.inOrder'⟩
  store := hkeeps.store.congr h.twin.store.inner.data.records h.twin.store.inner.data.counter
  cache := .of_isEmpty (hnothing.isEmpty h.nothing)

omit [Cache γ] [LawfulCache γ] [Cache γ'] [LawfulCache γ'] in
theorem Mirrors.spared' (h : Mirrors P b p) : p.store.mishaps = [] := by
  -- Twins that hear of every mishap have the same ones to come.
  have hsame := h.twin.store.mishaps
  rw [h.spared, List.filter_nil, List.filter_eq_nil_iff] at hsame
  exact List.eq_nil_iff_forall_not_mem.mpr fun m hm => hsame m hm rfl

/-! ### Requests to both -/

omit [Cache γ] [LawfulCache γ] [Cache γ'] [LawfulCache γ'] in
theorem Mirrors.sparesReads (h : Mirrors P b p) : b.store.SparesReads fun _ => true := by
  intro m hm
  rw [h.spared] at hm
  exact absurd hm List.not_mem_nil

/-- Any request leaves such boards. -/
theorem Mirrors.serve (h : Mirrors P b p) (hnothing : TakesNothing P) (r : BoardRequest) :
    Mirrors P (r.serve b).state (r.serve p).state := by
  refine ⟨(BoardRequest.twin_serve (fun _ _ => rfl) h.sparesReads h.twin r).1, ?_, ?_⟩
  -- No request lets a call go wrong, nor makes the second cache take anything.
  · exact BoardRequest.preserves_serve_of_writes
      (.ofStore ObservedStore.callsKeep_spared.toReadsKeep)
      (.ofStore fun s : ObservedStore MemoryStore => s.mishaps = [])
      (.ofStore ObservedStore.callsKeep_spared) r b h.spared
  · exact BoardRequest.preserves_serve_of_writes (.ofCache P)
      (.ofCache hnothing.get hnothing.preserves_set) (.ofCache hnothing.clear) r p h.nothing

/-- Without the use of a cache the full list is that of the store. -/
theorem Mirrors.answer_allCached (h : Mirrors P b p) (hnothing : TakesNothing P)
    (hkeeps : Keeps b false log issued) : (allCached false p).answer = (all false p).answer := by
  have hroom := not_crowded_of_cost (hnothing.cost h.nothing) (.allCached false)
  rcases answer_allCached_or_hit (h.keeps hnothing hkeeps) hroom with hplain | ⟨⟨bytes, hhit⟩, -⟩
  · exact hplain
  · exact nomatch (hnothing.answer_get h.nothing Page.allMessagesKey).symm.trans hhit

/-- A full list that the cache does not hold is answered alike; one that it holds is that of the
store. -/
theorem Mirrors.alike_allCached (h : Mirrors P b p) (hnothing : TakesNothing P)
    (hkeeps : Keeps b false log issued) (hroom : ¬ b.Crowded (.allCached false)) :
    Alike b p (.allCached false) := by
  have hplain := h.answer_allCached hnothing hkeeps
  have hstores : (all false b).answer = (all false p).answer :=
    (inStep_all (fun _ => rfl) false b p h.twin).1
  have hsame : (allCached false b).answer = (all false p).answer →
      Alike b p (.allCached false) := by
    intro heq
    apply Alike.of_same
    rw [BoardRequest.answer_serve_allCached, BoardRequest.answer_serve_allCached, hplain, heq]
  rcases answer_allCached_or_hit hkeeps hroom with hmiss | ⟨hhit, hlog⟩
  · exact hsame (hmiss.trans hstores)
  · -- The cache answers the log, and so does the other store unless it refuses to be scanned.
    have hscan := satisfies_all (h.keeps hnothing hkeeps).settled false
    cases hstored : (all false p).answer with
    | ok ms =>
      obtain rfl : ms = log :=
        (hscan.of_ok hstored).1.trans (h.keeps hnothing hkeeps).store.messages
      exact hsame (hlog.trans hstored.symm)
    | error why =>
      refine .of_hit hhit ?_ ?_ (hscan.of_error hstored).1
      · rw [BoardRequest.answer_serve_allCached, hlog, hkeeps.store.messages]
        rfl
      · rw [BoardRequest.answer_serve_allCached, hplain, hstored]
        rfl

/-- A page is the same through both caches. -/
theorem Mirrors.answer_page (h : Mirrors P b p) (hnothing : TakesNothing P)
    (hkeeps : Keeps b false log issued) {number size : Int64}
    (hroom : ¬ b.Crowded (.page number size)) :
    (page number size b).answer = (page number size p).answer := by
  by_cases hinvalid : number < 1 ∨ size < 1
  · rw [answer_page_invalid hinvalid, answer_page_invalid hinvalid]
  · -- Both begin with a count, and one that is answered tells that the stores serve every call.
    have hcounts : (count b).answer = (count p).answer := (inStep_count (fun _ => rfl) b p h.twin).1
    cases hcount : (count b).answer with
    | error why =>
      rw [answer_page_of_count hinvalid hcount,
        answer_page_of_count hinvalid (hcounts.symm.trans hcount)]
    | ok n =>
      have hvalid := Page.valid_iff_toInt.mp hinvalid
      have hserves := serves_of_count hkeeps.settled.idle h.spared hcount
      have hserves' := serves_of_count h.twin.store.inner.idle' h.spared'
        (hcounts.symm.trans hcount)
      rw [answer_page_served hkeeps hserves hvalid hroom,
        answer_page_served (h.keeps hnothing hkeeps) hserves' hvalid
          (not_crowded_of_cost (hnothing.cost h.nothing) _)]

/-- Every request for data is answered alike. -/
theorem Mirrors.alike (h : Mirrors P b p) (hnothing : TakesNothing P)
    (hkeeps : Keeps b false log issued) (hr : r.touchesData = true) (hroom : ¬ b.Crowded r) :
    Alike b p r := by
  -- What bypasses the caches runs in step; only a full list and a page may be answered by one.
  cases r with
  | post m =>
    exact .of_same ((BoardRequest.twin_serve (fun _ _ => rfl) h.sparesReads h.twin _).2 rfl)
  | delete id =>
    exact .of_same ((BoardRequest.twin_serve (fun _ _ => rfl) h.sparesReads h.twin _).2 rfl)
  | all byTimestamp =>
    exact .of_same
      (((inStep_all (fun _ => rfl) byTimestamp).bind fun _ => Action.inStep_pure _) b p h.twin).1
  | allCached byTimestamp =>
    obtain rfl : byTimestamp = false := by simpa [BoardRequest.touchesData] using hr
    exact h.alike_allCached hnothing hkeeps hroom
  | range low high =>
    exact .of_same
      (((inStep_range (fun _ => rfl) low high).bind fun _ => Action.inStep_pure _) b p h.twin).1
  | page number size =>
    apply Alike.of_same
    rw [BoardRequest.answer_serve_page, BoardRequest.answer_serve_page,
      h.answer_page hnothing hkeeps hroom]
  | count =>
    exact .of_same
      (((inStep_count fun _ => rfl).bind fun _ => Action.inStep_pure _) b p h.twin).1
  | awaitReady timeout => exact nomatch hr
  | isConnected => exact nomatch hr
  | close => exact nomatch hr

end TwoBoards

end Board

/-! ## Runs of both boards -/

namespace Move

variable {γ γ' : Type} [Cache γ] [LawfulCache γ] [Cache γ'] [LawfulCache γ'] {P : γ' → Prop}
  {b : Board (ObservedStore MemoryStore) γ} {p : Board (ObservedStore MemoryStore) γ'}

/-- The same move of a board with another cache; there is none for a change of the cache itself. -/
def mirror : Move γ → Option (Move γ')
  | request r => some (.request r)
  | connectFirst => some .connectFirst
  | setReachable on => some (.setReachable on)
  | setFailing on => some (.setFailing on)
  | mishap method m passed => some (.mishap method m passed)
  | tune _ => none

/-- Whether a move can be made with any cache: it makes no call go wrong, since a cache spares some
calls, and asks for no order of the full list that a cache need not have. -/
def shared : Move γ → Bool
  | request (.allCached byTimestamp) => !byTimestamp
  | mishap .. => false
  | _ => true

theorem readsByTime_of_shared {m : Move γ} (hshared : m.shared = true) : m.readsByTime = false := by
  cases m with
  | request r =>
    cases r with
    | allCached byTimestamp =>
      cases byTimestamp with
      | false => rfl
      | true => exact nomatch hshared
    | _ => rfl
  | _ => rfl

/-- A move of both boards, or a change of the first one's cache. -/
theorem mirrors_perform (h : Board.Mirrors P b p) (hnothing : TakesNothing P) {m : Move γ}
    (hshared : m.shared = true) :
    Board.Mirrors P (m.perform b).state
      (m.mirror.elim p fun m' : Move γ' => (m'.perform p).state) := by
  cases m with
  | request r => exact h.serve hnothing r
  | connectFirst =>
    -- The attempt leaves mishaps and cache alone.
    refine ⟨(Board.inStep_outside MemoryStore.inStep_connectFirst .done b p h.twin).2, ?_, ?_⟩
    · rw [state_perform_connectFirst]
      exact h.spared
    · show P ((connectFirst : Move γ').perform p).state.cache
      rw [state_perform_connectFirst]
      exact h.nothing
  | setReachable on =>
    exact ⟨(Board.inStep_outside (MemoryStore.inStep_setReachable on) .done b p h.twin).2, h.spared,
      h.nothing⟩
  | setFailing on =>
    exact ⟨(Board.inStep_outside (MemoryStore.inStep_setFailing on) .done b p h.twin).2, h.spared,
      h.nothing⟩
  | mishap method m passed => exact nomatch hshared
  | tune tuning => exact ⟨⟨h.twin.store, h.twin.index⟩, h.spared, h.nothing⟩

end Move

namespace History

variable {γ γ' : Type} [Cache γ] [LawfulCache γ] [Cache γ'] [LawfulCache γ'] {P : γ' → Prop}

/-- The moves of a run made on both boards, and between them any changes of the first one's
cache. -/
theorem mirrors_play (hnothing : TakesNothing P) {h : History γ} {g : History γ'}
    (hmirrors : Board.Mirrors P h.board g.board) {moves : List (Move γ)}
    (hshared : ∀ m ∈ moves, m.shared = true) :
    Board.Mirrors P (h.play moves).board (g.play (moves.filterMap Move.mirror)).board := by
  -- A change of the first cache is a move of one board only, so the second run may be the shorter.
  induction moves generalizing h g with
  | nil => exact hmirrors
  | cons m moves ih =>
    have hnext := Move.mirrors_perform hmirrors hnothing (hshared m List.mem_cons_self)
    have hrest : ∀ m' ∈ moves, m'.shared = true :=
      fun m' hm' => hshared m' (List.mem_cons_of_mem m hm')
    cases hmirror : (m.mirror : Option (Move γ')) with
    | none =>
      rw [hmirror] at hnext
      rw [List.filterMap_cons_none hmirror]
      exact ih (h := h.next m) hnext hrest
    | some m' =>
      rw [hmirror] at hnext
      rw [List.filterMap_cons_some hmirror]
      exact ih (h := h.next m) (g := g.next m') hnext hrest

/-- After every run of a new board whose cache is empty, and the same run of one whose cache takes
nothing, both have the same records and the same counter, and the cache is transparent to whatever
is asked next. -/
theorem transparent_of_run (hnothing : TakesNothing P) {cache : γ}
    (hcache : LawfulCache.IsEmpty cache) {plain : γ'} (hplain : P plain) (reachable : Bool)
    {moves : List (Move γ)} (hshared : ∀ m ∈ moves, m.shared = true) :
    Board.Transparent ((opened reachable cache).play moves).board
      ((opened reachable plain).play (moves.filterMap Move.mirror)).board := by
  have hopened : Board.Mirrors P (opened reachable cache).board (opened reachable plain).board :=
    ⟨⟨.refl rfl fun _ _ => rfl, rfl⟩, rfl, hplain⟩
  have hmirrors := mirrors_play hnothing hopened hshared
  have htimed : ∀ m ∈ moves, m.readsByTime = true → false = true := fun m hm htime =>
    (Move.readsByTime_of_shared (hshared m hm)).symm.trans htime
  obtain ⟨issued, hkeeps⟩ := keeps_play (keeps_opened false hcache reachable) moves htimed
  have hdata := hmirrors.twin.store.inner.data
  exact ⟨hdata.records, hdata.counter, fun r hr hroom => hmirrors.alike hnothing hkeeps hr hroom⟩

/-- Posts and reads through a cache with little room, which declines an offer at times and is empty
after the writes, while connections come and go; at last an outage finds the full list in it. -/
def sharedMoves : List (Move (RecordingCache LruCache)) :=
  [.request (.post { author := "a", text := "1", timestamp := 30 }),
    .request (.post { author := "b", text := "2", timestamp := 10 }),
    .request (.page 1 1), .tune (RecordingCache.tuning true), .request (.page 2 1),
    .request .close, .request (.page 1 1), .setFailing true, .request (.allCached false),
    .setFailing false, .tune (RecordingCache.tuning false), .request (.delete 1),
    .request (.allCached false), .setReachable false, .request .count]

/-- The board with a cache, after those moves. -/
def sharedBoard : Board (ObservedStore MemoryStore) (RecordingCache LruCache) :=
  ((opened true { inner := { maxCost := 100 } }).play sharedMoves).board

/-- The board whose cache takes nothing, after those moves. -/
def plainBoard : Board (ObservedStore MemoryStore) (RecordingCache MapCache) :=
  ((opened true { inner := {}, declining := true }).play
    (sharedMoves.filterMap Move.mirror)).board

/-- The full list is in the cache, and the store refuses to be scanned. -/
theorem transparent_of_run_shared :
    (TakesNothing (RecordingCache.Declining : RecordingCache MapCache → Prop) ∧
      LawfulCache.IsEmpty ({ inner := { maxCost := 100 } } : RecordingCache LruCache) ∧
      RecordingCache.Declining ({ inner := {}, declining := true } : RecordingCache MapCache) ∧
      ∀ m ∈ sharedMoves, m.shared = true) ∧
    Board.Transparent sharedBoard plainBoard ∧
    Board.Alike sharedBoard plainBoard (.allCached false) ∧
    (LawfulCache.entries sharedBoard.cache).map (·.1) = [Page.allMessagesKey] ∧
    (Board.allCached false plainBoard).answer
      = .error (.error (.connectFailed "store unreachable")) := by
  have hempty : LawfulCache.IsEmpty ({ inner := { maxCost := 100 } } : RecordingCache LruCache) :=
    RecordingCache.isEmpty_of_inner (LruCache.isEmpty_new 100)
  have hdeclining : RecordingCache.Declining
      ({ inner := {}, declining := true } : RecordingCache MapCache) :=
    ⟨rfl, MapCache.isEmpty_new, rfl⟩
  have hshared : ∀ m ∈ sharedMoves, m.shared = true := by decide
  have htransparent : Board.Transparent sharedBoard plainBoard :=
    transparent_of_run RecordingCache.takesNothing_declining hempty hdeclining true hshared
  have hroom : sharedBoard.HasRoom := by
    rw [Board.HasRoom]
    decide +kernel
  exact ⟨⟨RecordingCache.takesNothing_declining, hempty, hdeclining, hshared⟩, htransparent,
    htransparent.answers (.allCached false) rfl (Board.not_crowded_of_hasRoom hroom _),
    by decide +kernel,
    by decide +kernel⟩

end History

end Guestbook
