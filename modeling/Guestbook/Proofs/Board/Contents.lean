import Guestbook.Proofs.Board.Cached
import Guestbook.Proofs.Json.Length
import Guestbook.Proofs.Page

/-!
# The contents of a page

On a board whose store keeps a log, a page that does not hold the whole log shows a block of ids or,
past the blocks, the last messages of the log. What the cache holds under its keys is current: the
whole log in one of two orders, or the contents of the page that has the key.

## Main definitions
- `Page.contents`: the messages on a page of a log
- `Page.Partial`: a page that does not hold the whole log
- `Current`: what the cache may hold under a key
- `Board.Keeps`: a board keeps a log
- `Board.Shows`, `Board.PageStop`: what a page shows, and why it is not answered

## Main statements
- `satisfies_lastMessages`: the search finds the last messages of the log
- `satisfies_page`: every page
- `answer_page`: a page that nothing stops
-/

namespace Guestbook

open Outcome (Satisfies)

variable {log : List Message} {issued : Int} {timed : Bool}

/-! ## Pages of a log -/

namespace Page

/-- The messages on a page of a log that does not hold the whole log: those with an id of the page's
block or, on a page past the blocks, the last ones. -/
def contents (log : List Message) (page size : Int64) : List Message :=
  if page.toInt ≤ log.length / size.toInt then
    log.filter fun m =>
      (page.toInt - 1) * size.toInt ≤ m.id.toInt && m.id.toInt ≤ page.toInt * size.toInt - 1
  else log.drop (log.length - size.toInt.toNat)

theorem contents_sublist (log : List Message) (page size : Int64) :
    (contents log page size).Sublist log := by
  unfold contents
  split
  · exact List.filter_sublist
  · exact List.drop_sublist _ _

/-- A page that does not hold the whole log, of a log that is not too long to number its pages. -/
structure Partial (log : List Message) (page size : Int64) : Prop where
  page_pos : 1 ≤ page.toInt
  size_pos : 1 ≤ size.toInt
  size_lt : size.toInt < log.length
  countable : log.length / size.toInt < Word.greatest

end Page

/-- What the cache of a board that keeps `log` may hold under a key. The full list may stand there
in the order of timestamps only if it was read in that order, which `timed` tells. -/
def Current (timed : Bool) (log : List Message) (key : String) (ms : List Message) : Prop :=
  key = Page.allMessagesKey ∧ (ms = log ∨ timed = true ∧ ms = Message.sortByTimestamp log) ∨
    ∃ page size, key = Page.key page size ∧ Page.Partial log page size ∧
      ms = Page.contents log page size

theorem current_allMessagesKey {ms : List Message} :
    Current timed log Page.allMessagesKey ms ↔
      ms = log ∨ timed = true ∧ ms = Message.sortByTimestamp log := by
  constructor
  · rintro (⟨-, h⟩ | ⟨page, size, hkey, -⟩)
    · exact h
    · -- No page has the key of the full list.
      exact absurd hkey.symm (Page.key_ne_allMessagesKey page size)
  · exact fun h => .inl ⟨rfl, h⟩

/-- Where no list is read in the order of timestamps, the full list is the log as it stands. -/
theorem Current.eq_log {ms : List Message} (h : Current false log Page.allMessagesKey ms) :
    ms = log := by
  rcases current_allMessagesKey.mp h with rfl | ⟨hfalse, -⟩
  · rfl
  · exact nomatch hfalse

theorem current_key {ms : List Message} {page size : Int64} :
    Current timed log (Page.key page size) ms ↔
      Page.Partial log page size ∧ ms = Page.contents log page size := by
  constructor
  · rintro (⟨hkey, -⟩ | ⟨page', size', hkey, h⟩)
    · exact absurd hkey (Page.key_ne_allMessagesKey page size)
    · -- The key determines the page.
      obtain ⟨rfl, rfl⟩ := Page.key_inj hkey
      exact h
  · exact fun h => .inr ⟨page, size, rfl, h⟩

namespace Board

variable {γ : Type} [Cache γ] [LawfulCache γ] {b : Board (ObservedStore MemoryStore) γ}

/-! ## The last messages -/

/-- The calls that reading a page makes. -/
def pageMethods : List StoreMethod := [.countAll, .scanAll, .counter, .queryByRange]

/-- A store refuses one of the calls that reading a page makes, the first one or one after others
that were served. -/
def RefusesPage (b : Board (ObservedStore MemoryStore) γ) (why : Stop) : Prop :=
  ∃ store, b.store.Became b.store.inner store ∧
    ∃ call : StoreCall, call.method ∈ pageMethods ∧ store.Refuses call why

omit [Cache γ] [LawfulCache γ] in
theorem RefusesPage.of_refuses (hidle : b.store.inner.gate.connecting = false) {call : StoreCall}
    {why : Stop} (hcall : call.method ∈ pageMethods) (h : b.store.Refuses call why) :
    RefusesPage b why :=
  ⟨b.store, (Read.refl hidle).store, call, hcall, h⟩

omit [Cache γ] [LawfulCache γ] in
/-- What is refused after some reads is refused in the course of the page. -/
theorem RefusesPage.of_read {c : Board (ObservedStore MemoryStore) γ} (hread : Read b c)
    {why : Stop} (h : RefusesPage c why) : RefusesPage b why := by
  obtain ⟨store, hstore, hrefuses⟩ := h
  have hread' : Read c { c with store } := ⟨hstore, rfl⟩
  exact ⟨store, (hread.trans hread').store, hrefuses⟩

omit [Cache γ] [LawfulCache γ] in
/-- A store that serves the calls of a page goes on to serve them. -/
theorem not_refusesPage (hserves : ∀ method ∈ pageMethods, b.store.Serves method) {why : Stop} :
    ¬ RefusesPage b why := by
  rintro ⟨store, hstore, call, hcall, hrefuses⟩
  exact hrefuses.not_serves (hstore.serves (hserves call.method hcall))

omit [Cache γ] [LawfulCache γ] in
/-- The search finds the last messages of the log: all of its ids lie below the counter, so the
widest range holds every message. -/
theorem satisfies_lastMessages (hb : Settled b) (hkeeps : b.store.inner.Keeps log issued)
    {size : Int64} (hpos : 1 ≤ size.toInt) (hsize : size.toInt ≤ log.length) :
    (lastMessages size b).Satisfies
      (fun ms c => ms = log.drop (log.length - size.toInt.toNat) ∧ Read b c ∧ c.cache = b.cache)
      fun why c => RefusesPage b why ∧ Stayed b c ∧ c.cache = b.cache := by
  have hlength := hkeeps.length_le
  unfold lastMessages
  rw [Action.satisfies_bind, satisfies_atStore]
  apply (ObservedStore.satisfies_counter hb.idle hkeeps.counts).imp
  · intro lastId store hpost
    obtain ⟨hlastId, hstore⟩ := hpost
    have hread : Read b { b with store } := ⟨hstore, rfl⟩
    have hkeeps' := hkeeps.passed hstore.inner
    have hall : ∀ low : Int64, low.toInt ≤ 1 → store.inner.messagesIn low lastId = log := by
      intro low hlow
      rw [hkeeps'.messagesIn]
      apply List.filter_eq_self.mpr
      intro m hm
      have hid := hkeeps.ids m hm
      rw [Bool.and_eq_true, decide_eq_true_eq, decide_eq_true_eq, Int64.le_iff_toInt_le,
        Int64.le_iff_toInt_le]
      omega
    apply (satisfies_searchLast (hread.settled hb) size lastId size hpos).imp
    · rintro ms c ⟨rfl, hread', hcache⟩
      refine ⟨?_, hread.trans hread', hcache⟩
      -- The log is in id order already, so sorting it changes nothing.
      show lastOf size (store.inner.messagesIn 0 lastId) = _
      rw [hall 0 (by decide), lastOf, Message.sortById_of_idsIncrease hkeeps.idsIncrease]
    · intro why c hpost
      obtain ⟨hwhy, hstayed, hcache⟩ := hpost
      refine ⟨?_, hread.stayed_of_stayed hstayed, hcache⟩
      rcases hwhy with ⟨low, d, hread', hrefuses⟩ | ⟨-, -, hfew⟩
      · exact ⟨_, (hread.trans hread').store, _, by simp [pageMethods, StoreCall.method], hrefuses⟩
      · -- The ids up to the counter hold the whole log, which is long enough.
        have hgreatest := hkeeps.counts.le_greatest
        have hfew' : Int64.ofNat log.length < size := hall 1 (by decide) ▸ hfew
        rw [Int64.lt_iff_toInt_lt, Word.toInt_ofNat_of_le (by omega)] at hfew'
        omega
  · intro why store hpost
    obtain ⟨hwhy, hstore⟩ := hpost
    refine ⟨?_, ⟨hstore, rfl⟩, rfl⟩
    rcases hwhy with hrefuses | ⟨hnone, -⟩
    · exact .of_refuses hb.idle (by simp [pageMethods, StoreCall.method]) hrefuses
    · -- A counter that was never incremented has issued no id, so the log is empty.
      rcases hkeeps.counts with ⟨-, rfl⟩ | ⟨r, w, hsome, -⟩
      · omega
      · exact absurd (hnone.symm.trans hsome) (by simp)

/-! ## A board that keeps a log -/

/-- The store of a board keeps `log`, and its cache holds nothing that is not current. -/
structure Keeps (b : Board (ObservedStore MemoryStore) γ) (timed : Bool) (log : List Message)
    (issued : Int) : Prop where
  settled : Settled b
  store : b.store.inner.Keeps log issued
  cache : Caches (Current timed log) b.cache

/-- What a call that changed no data leaves keeps the log, if the cache is current. -/
theorem Keeps.of_stayed {c : Board (ObservedStore MemoryStore) γ} (h : Keeps b timed log issued)
    (hc : Stayed b c) (hcache : Caches (Current timed log) c.cache) : Keeps c timed log issued :=
  ⟨hc.settled h.settled, h.store.passed hc.store.inner, hcache⟩

/-! ## Pages -/

omit [Cache γ] [LawfulCache γ] in
/-- A page that does not hold the whole log has a window, which holds its contents. -/
theorem satisfies_readWindow (hb : Settled b) (hkeeps : b.store.inner.Keeps log issued)
    {page size total : Int64} (hpage : Page.Partial log page size)
    (htotal : total.toInt = log.length) :
    ∃ window, PageWindow.of page size total = .ok window ∧
      (readWindow size window b).Satisfies
        (fun ms c => ms = Page.contents log page size ∧ Read b c ∧ c.cache = b.cache)
        fun why c => RefusesPage b why ∧ Stayed b c ∧ c.cache = b.cache := by
  obtain ⟨hfirst, hpos, hlt, hcountable⟩ := hpage
  rw [← htotal] at hcountable
  have hnonneg : 0 ≤ total.toInt := by omega
  by_cases hregular : page.toInt ≤ total.toInt / size.toInt
  · -- A page within the board reads the range of its block.
    obtain ⟨low, high, hwindow, hlow, hhigh⟩ :=
      PageWindow.of_regular hnonneg hpos hcountable hfirst hregular
    refine ⟨_, hwindow, ?_⟩
    unfold readWindow
    rw [Action.satisfies_bind]
    apply (satisfies_range hb low high).imp
    · rintro ms c ⟨rfl, hc⟩
      refine ⟨?_, hc⟩
      have hsorted : Message.IdsIncrease (log.filter fun m => low ≤ m.id && m.id ≤ high) :=
        hkeeps.idsIncrease.sublist List.filter_sublist
      rw [hkeeps.messagesIn, Message.sortById_of_idsIncrease hsorted, Page.contents, ← htotal,
        if_pos hregular, ← hlow, ← hhigh]
      apply List.filter_congr
      intro m _
      rw [Bool.eq_iff_iff]
      simp only [Bool.and_eq_true, decide_eq_true_eq, Int64.le_iff_toInt_le]
    · intro why c hpost
      obtain ⟨hrefuses, hc⟩ := hpost
      exact ⟨.of_refuses hb.idle (by simp [pageMethods, StoreCall.method]) hrefuses, hc⟩
  · -- Any later page searches for the last messages.
    refine ⟨_, PageWindow.of_last hnonneg hpos hcountable (by omega), ?_⟩
    rw [Page.contents, ← htotal, if_neg hregular]
    exact satisfies_lastMessages hb hkeeps hpos (Int.le_of_lt hlt)

/-- Why a page is not answered. -/
inductive PageStop (b : Board (ObservedStore MemoryStore) γ) (log : List Message)
    (page size : Int64) : Stop → Prop where
  | invalid (h : ¬ (1 ≤ page.toInt ∧ 1 ≤ size.toInt)) :
      PageStop b log page size (.error (.invalidPage page size))
  | refused {why : Stop} (h : RefusesPage b why) : PageStop b log page size why
  /-- The number of pages is beyond a word. -/
  | uncountable (h : Word.greatest ≤ log.length / size.toInt) :
      PageStop b log page size (.fault .addOverflow)
  /-- The costs of the cache and the messages offered to it are beyond a word. -/
  | crowded {ms : List Message} (hms : ms.Sublist log)
      (h : UInt64.size ≤ (Cache.stats b.cache).cost + (price ms).toNat) :
      PageStop b log page size (.fault .addOverflow)

/-- What a page of a board that keeps `log` shows. -/
structure Shows (b : Board (ObservedStore MemoryStore) γ) (timed : Bool) (log : List Message)
    (page size : Int64) (ms : List Message) : Prop where
  valid : 1 ≤ page.toInt ∧ 1 ≤ size.toInt
  whole : (log.length : Int) ≤ size.toInt →
    Current timed log Page.allMessagesKey ms ∧ b.Serves Page.allMessagesKey log ms
  part : size.toInt < log.length →
    Page.Partial log page size ∧ ms = Page.contents log page size

omit [Cache γ] [LawfulCache γ] in
/-- A page that does not hold the whole log reads its contents from the store. -/
private theorem satisfies_pageRead (hb : Settled b) (hkeeps : b.store.inner.Keeps log issued)
    {page size : Int64} (hvalid : 1 ≤ page.toInt ∧ 1 ≤ size.toInt) {n : Nat}
    (htotal : (Int64.ofNat n).toInt = log.length) (hsize : size.toInt < log.length) :
    (pageRead page size n b).Satisfies
      (fun ms c => (Page.Partial log page size ∧ ms = Page.contents log page size) ∧
        Read b c ∧ c.cache = b.cache)
      fun why c => (RefusesPage b why ∨
          why = .fault .addOverflow ∧ Word.greatest ≤ log.length / size.toInt) ∧
        Stayed b c ∧ c.cache = b.cache := by
  have hpart : ¬ Int64.ofNat n ≤ size := by
    rw [Int64.le_iff_toInt_le, htotal]
    exact Int.not_le.mpr hsize
  rw [pageRead, if_neg hpart, Action.satisfies_bind]
  by_cases hcountable : log.length / size.toInt < Word.greatest
  · have hpage : Page.Partial log page size := ⟨hvalid.1, hvalid.2, hsize, hcountable⟩
    obtain ⟨window, hwindow, hread⟩ := satisfies_readWindow hb hkeeps hpage htotal
    rw [hwindow, Action.satisfies_orFault_ok, Action.satisfies_bind, Action.satisfies_report]
    apply hread.imp
    · exact fun ms c hpost => ⟨⟨hpage, hpost.1⟩, hpost.2⟩
    · exact fun why c hpost => ⟨.inl hpost.1, hpost.2⟩
  · -- One page more than the regular ones is beyond a word.
    have hgreatest := Int.not_lt.mp hcountable
    have hoverflow : PageWindow.of page size (Int64.ofNat n) = .error .addOverflow :=
      PageWindow.of_overflow (by omega) hvalid.2 (htotal ▸ hgreatest)
    rw [hoverflow, Action.satisfies_orFault_error]
    exact ⟨.inr ⟨rfl, hgreatest⟩, (Read.refl hb.idle).stayed, rfl⟩

/-- The full list in the order asked for. -/
def ordered (byTimestamp : Bool) (log : List Message) : List Message :=
  if byTimestamp then Message.sortByTimestamp log else log

/-- The full list through the cache is current. -/
theorem satisfies_fullList (h : Keeps b timed log issued) (byTimestamp : Bool)
    (htimed : byTimestamp = true → timed = true) :
    (allCached byTimestamp b).Satisfies
      (fun ms c => (Current timed log Page.allMessagesKey ms ∧
          b.Serves Page.allMessagesKey (ordered byTimestamp log) ms) ∧
        Read b c ∧ Caches (Current timed log) c.cache)
      fun why c => (b.store.Refuses .scanAll why ∨ why = .fault .addOverflow ∧
          UInt64.size ≤ (Cache.stats b.cache).cost + (price (ordered byTimestamp log)).toNat) ∧
        Stayed b c ∧ Caches (Current timed log) c.cache := by
  refine satisfies_allCached h.settled h.cache byTimestamp (by rw [h.store.messages]; rfl) ?_
  rw [current_allMessagesKey, ordered]
  split
  · next hbyTimestamp => exact .inr ⟨htimed hbyTimestamp, rfl⟩
  · exact .inl rfl

/-- A page that the whole log fits on is the full list. -/
private theorem satisfies_wholePage {c : Board (ObservedStore MemoryStore) γ}
    (h : Keeps b timed log issued) (hread : Read b c) (hcache : c.cache = b.cache)
    {page size : Int64} (hvalid : 1 ≤ page.toInt ∧ 1 ≤ size.toInt)
    (hwhole : (log.length : Int) ≤ size.toInt) :
    (allCached false c).Satisfies
      (fun ms d => b.Shows timed log page size ms ∧ Keeps d timed log issued ∧ Read b d)
      fun why d => b.PageStop log page size why ∧ Keeps d timed log issued ∧ Stayed b d := by
  have hc : Keeps c timed log issued := h.of_stayed hread.stayed (hcache ▸ h.cache)
  apply (satisfies_fullList hc false nofun).imp
  · intro ms d hpost
    obtain ⟨⟨hms, hserves⟩, hread', hd⟩ := hpost
    rw [Serves, found, hcache] at hserves
    exact ⟨⟨hvalid, fun _ => ⟨hms, hserves⟩, fun hsize => absurd hwhole (Int.not_le.mpr hsize)⟩,
      hc.of_stayed hread'.stayed hd, hread.trans hread'⟩
  · intro why d hpost
    obtain ⟨hwhy, hstayed, hd⟩ := hpost
    refine ⟨?_, hc.of_stayed hstayed hd, hread.stayed_of_stayed hstayed⟩
    rcases hwhy with hrefuses | ⟨rfl, hcost⟩
    · exact .refused ⟨_, hread.store, _, by simp [pageMethods, StoreCall.method], hrefuses⟩
    · exact .crowded (List.Sublist.refl log) (hcache ▸ hcost)

/-- A page that does not hold the whole log is read through an entry of its own. -/
private theorem satisfies_partPage {c : Board (ObservedStore MemoryStore) γ}
    (h : Keeps b timed log issued) (hread : Read b c) (hcache : c.cache = b.cache)
    {page size : Int64} (hvalid : 1 ≤ page.toInt ∧ 1 ≤ size.toInt) {n : Nat}
    (htotal : (Int64.ofNat n).toInt = log.length) (hsize : size.toInt < log.length) :
    (readThrough (Page.key page size) (pageHit page size n) (pageRead page size n) c).Satisfies
      (fun ms d => b.Shows timed log page size ms ∧ Keeps d timed log issued ∧ Read b d)
      fun why d => b.PageStop log page size why ∧ Keeps d timed log issued ∧ Stayed b d := by
  have hc : Keeps c timed log issued := h.of_stayed hread.stayed (hcache ▸ h.cache)
  have hpage : ∀ cache : γ, (pageRead page size n { c with cache }).Satisfies
      (fun ms d => (Page.Partial log page size ∧ ms = Page.contents log page size) ∧
        Read { c with cache } d ∧ d.cache = cache)
      fun why d => (RefusesPage c why ∨
          why = .fault .addOverflow ∧ Word.greatest ≤ log.length / size.toInt) ∧
        Stayed { c with cache } d ∧ d.cache = cache :=
    fun cache => satisfies_pageRead (hc.settled.withCache cache) hc.store hvalid htotal hsize
  apply (satisfies_readThrough_of_caches hc.settled.idle hc.cache hpage
    fun ms hms => current_key.mpr hms).imp
  · intro ms d hpost
    obtain ⟨⟨hcurrent, -⟩, hread', hd⟩ := hpost
    exact ⟨⟨hvalid, fun hwhole => absurd hsize (Int.not_lt.mpr hwhole),
      fun _ => current_key.mp hcurrent⟩, hc.of_stayed hread'.stayed hd, hread.trans hread'⟩
  · intro why d hpost
    obtain ⟨hwhy, hstayed, hd⟩ := hpost
    refine ⟨?_, hc.of_stayed hstayed hd, hread.stayed_of_stayed hstayed⟩
    rcases hwhy with (hrefuses | ⟨rfl, hgreatest⟩) | ⟨rfl, ms, ⟨-, rfl⟩, hcost⟩
    · exact .refused (hrefuses.of_read hread)
    · exact .uncountable hgreatest
    · exact .crowded (Page.contents_sublist log page size) (hcache ▸ hcost)

/-- Every page of a board that keeps a log is answered, unless the request is not valid, the store
refuses a call, or a word is too small for the number of pages or for the costs. -/
theorem satisfies_page (h : Keeps b timed log issued) (page size : Int64) :
    (Board.page page size b).Satisfies
      (fun ms c => b.Shows timed log page size ms ∧ Keeps c timed log issued ∧ Read b c)
      fun why c => b.PageStop log page size why ∧ Keeps c timed log issued ∧ Stayed b c := by
  by_cases hinvalid : page < 1 ∨ size < 1
  · -- The request is refused before any call.
    rw [page_of_invalid hinvalid, Action.satisfies_fail]
    exact ⟨.invalid fun hvalid => Page.valid_iff_toInt.mpr hvalid hinvalid, h,
      (Read.refl h.settled.idle).stayed⟩
  have hvalid := Page.valid_iff_toInt.mp hinvalid
  rw [page_of_valid hinvalid, Action.satisfies_bind]
  apply (satisfies_count h.settled).imp
  · rintro n c ⟨rfl, hread, hcache⟩
    -- There are no more messages than ids issued, so the count is not too great for a word.
    have htotal : (Int64.ofNat b.store.inner.records.size).toInt = log.length := by
      have hlength := h.store.length_le
      have hgreatest := h.store.counts.le_greatest
      rw [h.store.size]
      exact Word.toInt_ofNat_of_le (by omega)
    by_cases hwhole : Int64.ofNat b.store.inner.records.size ≤ size
    · rw [readThrough_of_whole hwhole]
      rw [Int64.le_iff_toInt_le, htotal] at hwhole
      exact satisfies_wholePage h hread hcache hvalid hwhole
    · rw [pageEntry, if_neg hwhole]
      rw [Int64.le_iff_toInt_le, htotal] at hwhole
      exact satisfies_partPage h hread hcache hvalid htotal (Int.not_le.mp hwhole)
  · intro why c hpost
    obtain ⟨hrefuses, hstayed, hcache⟩ := hpost
    exact ⟨.refused (.of_refuses h.settled.idle (by simp [pageMethods, StoreCall.method]) hrefuses),
      h.of_stayed hstayed (hcache ▸ h.cache), hstayed⟩

/-! ## Pages that are answered -/

/-- The costs that the cache holds and the encoding of all messages are a word together, as they are
when both lie in memory. -/
def HasRoom (b : Board (ObservedStore MemoryStore) γ) : Prop :=
  (Cache.stats b.cache).cost + (Json.encodeMessages b.store.inner.messages).length < UInt64.size

omit [LawfulCache γ] in
/-- Nothing stops a valid page while the store serves its calls and there is room for the cache. -/
private theorem not_pageStop (hroom : HasRoom b) (hkeeps : b.store.inner.Keeps log issued)
    (hserves : ∀ method ∈ pageMethods, b.store.Serves method) {page size : Int64}
    (hvalid : 1 ≤ page.toInt ∧ 1 ≤ size.toInt) {why : Stop} : ¬ PageStop b log page size why := by
  rw [HasRoom, hkeeps.messages] at hroom
  -- One case for each reason to stop.
  rintro (hinvalid | hrefuses | huncountable | @⟨ms, hms, hcost⟩)
  · exact hinvalid hvalid
  · exact not_refusesPage hserves hrefuses
  · -- Each message takes three bytes at least, so so many of them are not encoded in a word.
    have hlength := Json.three_mul_length_le log
    have hdiv := Int.ediv_le_self size.toInt (Int.natCast_nonneg log.length)
    simp only [Word.greatest] at huncountable
    simp only [UInt64.size] at hroom
    omega
  · -- What is offered is a part of the log, and its encoding no longer than that of the log.
    have hprice := price_le ms
    have hencoding := Json.length_encodeMessages_le hms
    omega

/-- A valid page is answered while the store serves its calls and there is room for the cache. -/
theorem answer_page (h : Keeps b timed log issued) (hroom : HasRoom b)
    (hserves : ∀ method ∈ pageMethods, b.store.Serves method) {page size : Int64}
    (hvalid : 1 ≤ page.toInt ∧ 1 ≤ size.toInt) :
    ∃ ms, (Board.page page size b).answer = .ok ms ∧ b.Shows timed log page size ms := by
  obtain ⟨ms, hanswer, hshows, -⟩ := (satisfies_page h page size).answers
    fun _ _ hstop => not_pageStop hroom h.store hserves hvalid hstop.1
  exact ⟨ms, hanswer, hshows⟩

end Board

end Guestbook
