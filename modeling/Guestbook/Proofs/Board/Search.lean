import Guestbook.Proofs.Board.Contents
import Guestbook.Proofs.Board.Frame

/-!
# The end of the search for the last messages

The search for the last messages widens its range until it holds enough of them or reaches id zero.
It makes 64 queries at most and then has an end or never will: a span that can double no more
repeats the same query. That happens only below a counter at the greatest word, whose widest range
starts at id one and not at zero, and only if too few messages have a positive id.

## Main definitions
- `Board.searchFor`: so many rounds of the search, without a limit to its span
- `Board.queries`, `Board.Asks`: the range queries of a board, and what makes so many at most
- `Board.SearchesForEver`: a page whose search has no end
- `Board.Ending`: when a page is answered, and after how many queries

## Main statements
- `searchLast_eq`: the search in rounds
- `asks_page`: the queries of a page
- `satisfies_searchFor`: a search without end
- `ending_page`: every page
-/

namespace Guestbook

open Guestbook.Action (Preserves)

namespace Board

/-! ## Rounds of the search -/

section Rounds

variable {σ γ : Type} [Store σ]

/-- So many rounds of the search for the last messages, with `none` if it has not ended by then. -/
def searchFor (size lastId : Int64) :
    Nat → Int64 → Action (Board σ γ) (Option (List Message))
  | 0, _ => return none
  | rounds + 1, span => do
    let low ← Action.orFault (searchStart lastId span)
    let ms ← range low lastId
    if size ≤ Int64.ofNat ms.length ∨ low = 0 then return some (lastOf size ms)
    else searchFor size lastId rounds (Word.saturatingDouble span)

/-- What a search that has ended answers; one that has not is taken to be endless. -/
def ended (found : Option (List Message)) : Action (Board σ γ) (List Message) :=
  match found with
  | some ms => return ms
  | none => Action.stop .endless

/-- One round, if the rest of the search is made of rounds. -/
private theorem searchLast_eq_of_rest {size lastId span : Int64} {rounds : Nat}
    (hrest : (if span.toInt < (Word.saturatingDouble span).toInt
        then searchLast size lastId (Word.saturatingDouble span) else Action.stop .endless)
      = (searchFor size lastId rounds (Word.saturatingDouble span) >>= ended :
        Action (Board σ γ) (List Message))) :
    (searchLast size lastId span : Action (Board σ γ) (List Message))
      = searchFor size lastId (rounds + 1) span >>= ended := by
  rw [searchLast, searchFor, bind_assoc]
  congr 1
  funext low
  rw [bind_assoc]
  congr 1
  funext ms
  by_cases hdone : size ≤ Int64.ofNat ms.length ∨ low = 0
  · rw [if_pos hdone, if_pos hdone, pure_bind]
    rfl
  · rw [if_neg hdone, if_neg hdone, ← hrest]
    split <;> rfl

/-- After one doubling a span needs one doubling less to reach the greatest word. -/
private theorem widest_of_double {doublings : Nat} {span : Int64} (hspan : 1 ≤ span.toInt)
    (h : Word.greatest ≤ (Nat.pow 2 (doublings + 1) : Nat) * span.toInt) :
    Word.greatest ≤ (Nat.pow 2 doublings : Nat) * (Word.saturatingDouble span).toInt := by
  have hpositive : (1 : Int) ≤ (Nat.pow 2 doublings : Nat) :=
    Int.ofNat_le.mpr (Nat.pow_pos (by decide))
  have hdouble := Word.toInt_saturatingDouble (a := span) (by omega)
  have hpow : ((Nat.pow 2 (doublings + 1) : Nat) : Int) = (Nat.pow 2 doublings : Nat) * 2 := rfl
  rw [hpow, Int.mul_assoc] at h
  rw [hdouble, Int.min_def]
  split
  · -- The double is cut off at the greatest word.
    calc Word.greatest = 1 * Word.greatest := (Int.one_mul _).symm
      _ ≤ (Nat.pow 2 doublings : Nat) * Word.greatest :=
        Int.mul_le_mul_of_nonneg_right hpositive (by decide)
  · exact h

/-- Sixty-three doublings take any span to the greatest word. -/
private theorem widest_of_pos {span : Int64} (hspan : 1 ≤ span.toInt) :
    Word.greatest ≤ (Nat.pow 2 63 : Nat) * span.toInt := by
  have hpow : ((Nat.pow 2 63 : Nat) : Int) = Word.greatest + 1 := by decide
  rw [hpow]
  simp only [Word.greatest]
  omega

/-- The search is made of rounds, no more than it takes the span to reach the greatest word. -/
theorem searchLast_eq (size lastId : Int64) {doublings : Nat} {span : Int64}
    (hspan : 1 ≤ span.toInt) (hwidest : Word.greatest ≤ (Nat.pow 2 doublings : Nat) * span.toInt) :
    ∃ rounds, rounds ≤ doublings + 1 ∧
      (searchLast size lastId span : Action (Board σ γ) (List Message))
        = searchFor size lastId rounds span >>= ended := by
  -- A round halves what the span lacks, so the number of doublings left carries the induction.
  induction doublings generalizing span with
  | zero =>
    have hgreatest := Word.le_greatest (Word.saturatingDouble span)
    have hone : ((Nat.pow 2 0 : Nat) : Int) = 1 := rfl
    have hlast : ¬ span.toInt < (Word.saturatingDouble span).toInt := by
      rw [hone, Int.one_mul] at hwidest
      omega
    refine ⟨1, Nat.le_refl _, searchLast_eq_of_rest ?_⟩
    rw [if_neg hlast]
    rfl
  | succ doublings ih =>
    by_cases hwider : span.toInt < (Word.saturatingDouble span).toInt
    · obtain ⟨rounds, hle, hrest⟩ := ih (by omega) (widest_of_double hspan hwidest)
      refine ⟨rounds + 1, by omega, searchLast_eq_of_rest ?_⟩
      rw [if_pos hwider]
      exact hrest
    · -- The span is the greatest word, so the search ends with this round.
      refine ⟨1, by omega, searchLast_eq_of_rest ?_⟩
      rw [if_neg hwider]
      rfl

end Rounds

/-! ## Range queries -/

section Queries

variable {σ γ : Type} {α β : Type}

/-- The range queries that were made of the store of a board. -/
def queries (b : Board (ObservedStore σ) γ) : Nat :=
  b.store.calls.countP fun call => call.method = .queryByRange

/-- An action makes so many range queries at most, however it ends. -/
def Asks (n : Nat) (a : Action (Board (ObservedStore σ) γ) α) : Prop :=
  ∀ b, (a b).state.queries ≤ b.queries + n

theorem Asks.mono {n n' : Nat} {a : Action (Board (ObservedStore σ) γ) α} (h : Asks n a)
    (hle : n ≤ n') : Asks n' a :=
  fun b => Nat.le_trans (h b) (Nat.add_le_add_left hle _)

/-- Two actions in a row make the queries of both. -/
theorem Asks.bind {n k : Nat} {a : Action (Board (ObservedStore σ) γ) α}
    {next : α → Action (Board (ObservedStore σ) γ) β} (ha : Asks n a)
    (hnext : ∀ x, Asks k (next x)) : Asks (n + k) (a >>= next) := by
  intro b
  have hfirst := ha b
  cases hanswer : (a b).answer with
  | ok x =>
    rw [(Action.bind_of_ok hanswer).2]
    have hrest := hnext x (a b).state
    omega
  | error why =>
    rw [(Action.bind_of_error hanswer).2]
    omega

/-- What makes no query adds none. -/
theorem Asks.after {n : Nat} {a : Action (Board (ObservedStore σ) γ) α}
    {next : α → Action (Board (ObservedStore σ) γ) β} (ha : Asks 0 a)
    (hnext : ∀ x, Asks n (next x)) : Asks n (a >>= next) :=
  (ha.bind hnext).mono (Nat.le_of_eq (Nat.zero_add n))

/-- An action that keeps every bound on the queries makes none. -/
theorem Asks.of_preserves {a : Action (Board (ObservedStore σ) γ) α}
    (h : ∀ n, Preserves (fun b => b.queries ≤ n) a) : Asks 0 a :=
  fun b => h b.queries b (Nat.le_refl _)

/-- A call is noted once, whether it is served or goes wrong. -/
theorem calls_observe (call : StoreCall) (a : Action σ α) (s : ObservedStore σ) :
    (ObservedStore.observe call a s).state.calls = call :: s.calls := by
  unfold ObservedStore.observe
  split <;> rfl

theorem calls_arranged (call : StoreCall) (a : Action σ (List Record)) (s : ObservedStore σ) :
    (ObservedStore.arranged (ObservedStore.observe call a) s).state.calls = call :: s.calls := by
  -- Arranging the records of an answer makes no call.
  unfold ObservedStore.arranged
  rw [Action.state_bind_of_same fun _ _ => rfl, calls_observe]

/-- A call that is no range query. -/
theorem asks_call {call : StoreCall} (hcall : call.method ≠ .queryByRange)
    {a : Action (ObservedStore σ) α} (ha : ∀ s, (a s).state.calls = call :: s.calls) :
    Asks 0 (atStore a : Action (Board (ObservedStore σ) γ) α) := by
  intro b
  show (a b.store).state.calls.countP _ ≤ b.queries
  rw [ha, List.countP_cons_of_neg (by simpa using hcall)]
  exact Nat.le_refl _

variable [Store σ]

/-- A range of ids is read with one query. -/
theorem queries_range (low high : Int64) (b : Board (ObservedStore σ) γ) :
    (range low high b).state.queries = b.queries + 1 := by
  have hstate : (range low high b).state.store
      = (Store.queryByRange b.index low high b.store).state := by
    unfold range
    rw [(Action.bind_of_ok rfl).2, Action.state_bind_of_same fun _ _ => rfl]
    rfl
  have hcalls : (range low high b).state.store.calls
      = .queryByRange b.index low high :: b.store.calls := by rw [hstate]; exact calls_arranged ..
  rw [queries, hcalls]
  exact List.countP_cons_of_pos rfl

theorem asks_range (low high : Int64) :
    Asks 1 (range low high : Action (Board (ObservedStore σ) γ) (List Message)) :=
  fun b => Nat.le_of_eq (queries_range low high b)

theorem asks_searchFor (size lastId : Int64) (rounds : Nat) (span : Int64) :
    Asks rounds (searchFor size lastId rounds span :
      Action (Board (ObservedStore σ) γ) (Option (List Message))) := by
  -- Each round makes one query, and the span plays no part in that.
  induction rounds generalizing span with
  | zero => exact .of_preserves fun _ => Action.preserves_pure _
  | succ rounds ih =>
    refine Asks.mono (Asks.after (.of_preserves fun _ => Action.preserves_orFault _) ?_)
      (Nat.le_of_eq (Nat.add_comm 1 rounds))
    intro low
    apply (asks_range low lastId).bind
    intro ms
    split
    · exact (Asks.of_preserves fun _ => Action.preserves_pure _).mono (Nat.zero_le _)
    · exact ih (Word.saturatingDouble span)

/-- The search for the last messages makes sixty-four queries at most. -/
theorem asks_lastMessages {size : Int64} (hsize : 1 ≤ size.toInt) :
    Asks 64 (lastMessages size : Action (Board (ObservedStore σ) γ) (List Message)) := by
  have hcounter : Asks 0 (atStore Store.counter : Action (Board (ObservedStore σ) γ) Int64) :=
    asks_call (by decide) fun s => calls_observe .counter _ s
  have hended : ∀ found, Asks 0 (ended found :
      Action (Board (ObservedStore σ) γ) (List Message)) := by
    intro found
    cases found with
    | some ms => exact .of_preserves fun _ => Action.preserves_pure _
    | none => exact .of_preserves fun _ => Action.preserves_stop _
  apply hcounter.after
  intro lastId
  obtain ⟨rounds, hrounds, hsearch⟩ :=
    searchLast_eq (σ := ObservedStore σ) (γ := γ) size lastId hsize (widest_of_pos hsize)
  rw [hsearch]
  exact ((asks_searchFor size lastId rounds size).bind hended).mono hrounds

variable [Cache γ]

omit [Store σ] in
theorem asks_cached (key : String) :
    Asks 0 (cached key : Action (Board (ObservedStore σ) γ) (Option (List Message))) :=
  .of_preserves fun _ => preserves_cached fun _ hb => hb

omit [Store σ] in
theorem asks_populate (key : String) (ms : List Message) :
    Asks 0 (populate key ms : Action (Board (ObservedStore σ) γ) Unit) :=
  .of_preserves fun _ => preserves_populate (fun _ _ _ hb => hb) ms

omit [Store σ] in
/-- Looking up and offering make no query, so a read through an entry makes those of the read. -/
theorem asks_readThrough {k : Nat} {key : String} {hit : Event}
    {read : Action (Board (ObservedStore σ) γ) (List Message)} (hread : Asks k read) :
    Asks k (readThrough key hit read) := by
  apply (asks_cached key).after
  intro found
  cases found with
  | some ms =>
    have hhit : Asks 0 (do
        Action.report hit
        return ms : Action (Board (ObservedStore σ) γ) (List Message)) :=
      .of_preserves fun _ => (Action.preserves_report _).bind fun _ => Action.preserves_pure _
    exact hhit.mono (Nat.zero_le k)
  | none =>
    apply Asks.bind (k := 0) hread
    exact fun ms => (asks_populate _ ms).after fun _ =>
      .of_preserves fun _ => Action.preserves_pure _

omit [Cache γ] in
theorem asks_all (byTimestamp : Bool) :
    Asks 0 (all byTimestamp : Action (Board (ObservedStore σ) γ) (List Message)) := by
  have hscan : Asks 0 (atStore Store.scanAll :
      Action (Board (ObservedStore σ) γ) (List Record)) :=
    asks_call (by decide) fun s => calls_arranged .scanAll _ s
  exact hscan.after fun _ => .of_preserves fun _ => (Action.preserves_reporting _).bind fun _ =>
    Action.preserves_pure _

omit [Cache γ] in
theorem asks_readWindow {size : Int64} (hsize : 1 ≤ size.toInt) (window : PageWindow) :
    Asks 64 (readWindow size window : Action (Board (ObservedStore σ) γ) (List Message)) := by
  cases window with
  | ids low high =>
    have hrange := (asks_range low high (σ := σ) (γ := γ)).bind fun ms =>
      Asks.of_preserves fun _ => Action.preserves_pure (Message.sortById ms)
    exact hrange.mono (by decide)
  | last => exact asks_lastMessages hsize

omit [Cache γ] in
theorem asks_pageRead {size : Int64} (hsize : 1 ≤ size.toInt) (number : Int64) (n : Nat) :
    Asks 64 (pageRead number size n : Action (Board (ObservedStore σ) γ) (List Message)) := by
  unfold pageRead
  split
  · exact (asks_all false).mono (by decide)
  · -- Only reading the window makes queries.
    apply (Asks.of_preserves fun _ => Action.preserves_orFault _).after
    intro window
    apply (Asks.of_preserves fun _ => Action.preserves_report _).after
    exact fun _ => asks_readWindow hsize window

/-- A page makes sixty-four range queries at most, on any board and however it ends. -/
theorem asks_page (number size : Int64) :
    Asks 64 (page number size : Action (Board (ObservedStore σ) γ) (List Message)) := by
  by_cases hvalid : number < 1 ∨ size < 1
  · rw [page_of_invalid hvalid]
    exact (Asks.of_preserves fun _ => Action.preserves_fail _).mono (by decide)
  · rw [page_of_valid hvalid]
    have hcount : Asks 0 (count : Action (Board (ObservedStore σ) γ) Nat) :=
      asks_call (by decide) fun s => calls_observe .countAll _ s
    have hsize := (Page.valid_iff_toInt.mp hvalid).2
    exact hcount.after fun n => asks_readThrough (asks_pageRead hsize number n)

end Queries

end Board

/-! ## A search without end -/

/-- A search for `size` messages meets neither enough of them nor id zero: the counter stands at the
greatest word, which the widest range does not reach down to zero from, and too few messages have a
positive id. -/
structure MemoryStore.Bottomless (s : MemoryStore) (size : Int64) : Prop where
  counts : s.Counts Word.greatest
  few : ((s.messagesIn 1 Int64.maxValue).length : Int) < size.toInt

theorem MemoryStore.Bottomless.passed_iff {s t : MemoryStore} (ht : s.Passed t) (size : Int64) :
    t.Bottomless size ↔ s.Bottomless size := by
  obtain ⟨gate, -, rfl⟩ := ht
  constructor
  · intro h
    exact ⟨h.counts, h.few⟩
  · intro h
    exact ⟨h.counts, h.few⟩

namespace Board

variable {γ : Type} {b c : Board (ObservedStore MemoryStore) γ} {size : Int64}

theorem Read.bottomless_iff (h : Read b c) (size : Int64) :
    c.store.inner.Bottomless size ↔ b.store.inner.Bottomless size :=
  MemoryStore.Bottomless.passed_iff h.store.inner size

/-- Below the greatest word no range starts at zero. -/
private theorem one_le_searchStart {span low : Int64} (hspan : 1 ≤ span.toInt)
    (hlow : searchStart Int64.maxValue span = .ok low) : 1 ≤ low := by
  obtain ⟨low', hlow', hvalue⟩ := searchStart_eq Int64.maxValue hspan
  obtain rfl := Except.ok.inj (hlow.symm.trans hlow')
  have hgreatest := Word.le_greatest span
  have hmax : Int64.maxValue.toInt = Word.greatest := by decide
  rw [Int64.le_iff_toInt_le, hvalue, hmax, Word.toInt_one]
  omega

/-- However many rounds it makes, a search without end has not ended, and each round was a query. -/
theorem satisfies_searchFor (hb : Settled b) (hserves : b.store.Serves .queryByRange)
    (hfew : ((b.store.inner.messagesIn 1 Int64.maxValue).length : Int) < size.toInt) (rounds : Nat)
    {span : Int64} (hspan : 1 ≤ span.toInt) :
    (searchFor size Int64.maxValue rounds span b).Satisfies
      (fun found c => found = none ∧ c.queries = b.queries + rounds) fun _ _ => False := by
  induction rounds generalizing b span with
  | zero => exact ⟨rfl, rfl⟩
  | succ rounds ih =>
    obtain ⟨low, hlow, -⟩ := searchStart_eq Int64.maxValue hspan
    have hone := one_le_searchStart hspan hlow
    have hquery : (range low Int64.maxValue b).Satisfies
        (fun _ c => c.queries = b.queries + 1) fun _ c => c.queries = b.queries + 1 :=
      .of_state (queries_range low Int64.maxValue b)
    unfold searchFor
    rw [hlow, Action.satisfies_bind, Action.satisfies_orFault_ok, Action.satisfies_bind]
    apply ((satisfies_range hb low Int64.maxValue).and hquery).imp
    · intro ms c hpost
      obtain ⟨⟨rfl, hread, -⟩, hqueries⟩ := hpost
      -- The range holds no more messages than all positive ids, and it does not start at zero.
      have hless := b.store.inner.length_messagesIn_le Int64.maxValue (by decide) hone
      have hmore : ¬ (size ≤ Int64.ofNat (b.store.inner.messagesIn low Int64.maxValue).length ∨
          low = 0) := by
        intro hdone
        obtain henough | rfl := hdone
        · have henough' := Word.toNat_le_of_le_ofNat henough
          omega
        · exact absurd hone (by decide)
      rw [if_neg hmore]
      have hwider : 1 ≤ (Word.saturatingDouble span).toInt := by
        rw [Word.toInt_saturatingDouble (by omega)]
        simp only [Word.greatest]
        omega
      have hrest := ih (hread.settled hb) (hread.store.serves hserves)
        (by rw [hread.store.inner.messagesIn]; exact hfew) hwider
      apply hrest.imp
      · intro found d hfound
        exact ⟨hfound.1, by omega⟩
      · intro why d hnever
        exact hnever
    · intro why c hpost
      obtain ⟨⟨hrefuses, -⟩, -⟩ := hpost
      exact hrefuses.not_serves hserves

/-- A search below the greatest word that meets too few messages tells of a bottomless store. -/
private theorem bottomless_of_few {n : Int} (hcounts : b.store.inner.Counts n) {lastId : Int64}
    (hlastId : lastId.toInt = n) (hgreatest : lastId.toInt = Word.greatest)
    (hmemory : (b.store.inner.records.size : Int) ≤ Word.greatest)
    (hfew : Int64.ofNat (b.store.inner.messagesIn 1 lastId).length < size) :
    b.store.inner.Bottomless size := by
  obtain rfl : lastId = Int64.maxValue := Int64.toInt.inj (hgreatest.trans (by decide))
  have hlength := b.store.inner.length_messagesIn_le_size 1 Int64.maxValue
  rw [Int64.lt_iff_toInt_lt, Word.toInt_ofNat_of_le (by omega)] at hfew
  exact ⟨(hlastId.symm.trans hgreatest) ▸ hcounts, hfew⟩

/-- The search for the last messages is without end exactly in a bottomless store. -/
theorem satisfies_lastMessages_end (hb : Settled b) {n : Int} (hcounts : b.store.inner.Counts n)
    (hserves : ∀ method ∈ pageMethods, b.store.Serves method)
    (hmemory : (b.store.inner.records.size : Int) ≤ Word.greatest) (hsize : 1 ≤ size.toInt) :
    (lastMessages size b).Satisfies
      (fun _ c => ¬ b.store.inner.Bottomless size ∧ c.cache = b.cache)
      fun why _ => why = .endless ↔ b.store.inner.Bottomless size := by
  have hquery : b.store.Serves .queryByRange := hserves _ (by simp [pageMethods])
  unfold lastMessages
  rw [Action.satisfies_bind, satisfies_atStore]
  apply (ObservedStore.satisfies_counter hb.idle hcounts).imp
  · intro lastId store hpost
    obtain ⟨hlastId, hstore⟩ := hpost
    have hread : Read b { b with store } := ⟨hstore, rfl⟩
    have hmessages := hstore.inner.messagesIn
    by_cases hbottomless : b.store.inner.Bottomless size
    · -- The counter stands at the greatest word, and no round of the search is the last.
      have hgreatest := hlastId.trans (hcounts.unique hbottomless.counts)
      obtain rfl : lastId = Int64.maxValue := Int64.toInt.inj (hgreatest.trans (by decide))
      obtain ⟨rounds, -, hsearch⟩ := searchLast_eq (σ := ObservedStore MemoryStore) (γ := γ) size
        Int64.maxValue hsize (widest_of_pos hsize)
      rw [hsearch, Action.satisfies_bind]
      apply (satisfies_searchFor (hread.settled hb) (hstore.serves hquery)
        (by rw [hmessages]; exact hbottomless.few) rounds hsize).imp
      · intro found c hpost
        obtain ⟨rfl, -⟩ := hpost
        exact iff_of_true rfl hbottomless
      · intro why c hnever
        exact hnever.elim
    · apply (satisfies_searchLast (hread.settled hb) size lastId size hsize).imp
      · intro ms c hpost
        obtain ⟨-, -, hcache⟩ := hpost
        exact ⟨hbottomless, hcache⟩
      · intro why c hpost
        obtain ⟨⟨low, d, hread', hrefuses⟩ | ⟨-, hgreatest, hfew⟩, -⟩ := hpost
        · exact absurd (hread'.store.serves (hstore.serves hquery)) hrefuses.not_serves
        · rw [hmessages] at hfew
          exact absurd (bottomless_of_few hcounts hlastId hgreatest hmemory hfew) hbottomless
  · intro why store hpost
    obtain ⟨hrefuses | ⟨hnone, rfl⟩, -⟩ := hpost
    · exact absurd (hserves _ (by simp [pageMethods, StoreCall.method])) hrefuses.not_serves
    · -- A counter that was never incremented stands at zero.
      refine iff_of_false (by simp) fun hbottomless => ?_
      have hzero := hbottomless.counts.unique (.inl ⟨hnone, rfl⟩)
      exact absurd hzero (by decide)

/-! ## Pages without end -/

variable [Cache γ] [LawfulCache γ]

/-- A page whose search has no end: it is past the blocks of a board that it does not hold, it is
not in the cache, and the store is bottomless. -/
structure SearchesForEver (b : Board (ObservedStore MemoryStore) γ) (number size : Int64) :
    Prop where
  part : size.toInt < b.store.inner.records.size
  last : b.store.inner.records.size / size.toInt < number.toInt
  miss : b.found (Page.key number size) = .ok none
  bottomless : b.store.inner.Bottomless size

/-- A look-up has an end, and it tells whether the key is missed. -/
private theorem satisfies_cached_end (hc : LawfulCache.Balanced b.cache) (key : String) :
    (cached key b).Satisfies
      (fun found c => (found = none ↔ b.found key = .ok none) ∧
        ∃ cache, c = { b with cache } ∧ LawfulCache.Balanced cache)
      fun why _ => why ≠ .endless ∧ b.found key ≠ .ok none := by
  unfold cached
  rw [Action.satisfies_bind, satisfies_atCache]
  refine (LawfulCache.satisfies_get hc key).with_answer.imp ?_ fun _ _ => False.elim
  intro found cache hpost
  obtain ⟨⟨⟨hbalanced, -⟩, -⟩, hanswer⟩ := hpost
  cases found with
  | none => exact ⟨iff_of_true rfl hanswer, cache, rfl, hbalanced⟩
  | some bytes =>
    have hfound : b.found key ≠ .ok none := fun hnone => nomatch hanswer.symm.trans hnone
    dsimp only
    cases Json.decodeMessages bytes with
    | ok ms => exact ⟨iff_of_false nofun hfound, cache, rfl, hbalanced⟩
    | error e => exact ⟨nofun, hfound⟩

/-- An offer to the cache has an end. -/
private theorem satisfies_populate_end (hc : LawfulCache.Balanced b.cache) (key : String)
    (ms : List Message) :
    (populate key ms b).Satisfies (fun _ _ => True) fun why _ => why ≠ .endless := by
  unfold populate
  rw [Action.satisfies_bind, satisfies_atCache]
  apply (LawfulCache.satisfies_set hc key _ _).imp
  · intro accepted cache _
    split <;> trivial
  · intro why cache hpost
    obtain ⟨-, rfl, -⟩ := hpost
    exact nofun

/-- A read through an entry is without end exactly if there is no entry and its read is without
end. -/
private theorem satisfies_readThrough_end (hc : LawfulCache.Balanced b.cache) {key : String}
    {hit : Event} {read : Action (Board (ObservedStore MemoryStore) γ) (List Message)} {D : Prop}
    (hread : ∀ cache, (read { b with cache }).Satisfies (fun _ c => ¬ D ∧ c.cache = cache)
      fun why _ => why = .endless ↔ D) :
    (readThrough key hit read b).Satisfies (fun _ _ => ¬ (b.found key = .ok none ∧ D))
      fun why _ => why = .endless ↔ b.found key = .ok none ∧ D := by
  apply satisfies_readThrough ((satisfies_cached_end hc key).imp (fun _ _ => id) ?_)
  · intro ms c hpost hsearch
    exact Option.some_ne_none ms (hpost.1.mpr hsearch.1)
  · intro c hpost
    obtain ⟨hmiss, cache, rfl, hcache⟩ := hpost
    apply (hread cache).imp
    · intro ms d hpost
      obtain ⟨hends, rfl⟩ := hpost
      apply (satisfies_populate_end hcache key ms).imp
      · exact fun _ _ _ hsearch => hends hsearch.2
      · exact fun why _ hwhy => iff_of_false hwhy fun hsearch => hends hsearch.2
    · exact fun why d hwhy => hwhy.trans (and_iff_right (hmiss.mp rfl)).symm
  · exact fun why c hpost => iff_of_false hpost.1 fun hsearch => hpost.2 hsearch.1

omit [Cache γ] [LawfulCache γ] in
/-- What a page reads has no end exactly if it is the last page and that is searched for ever. -/
private theorem satisfies_pageRead_end (hb : Settled b) {n : Int}
    (hcounts : b.store.inner.Counts n) (hserves : ∀ method ∈ pageMethods, b.store.Serves method)
    (hmemory : (b.store.inner.records.size : Int) ≤ Word.greatest) {number size : Int64}
    (hnumber : 1 ≤ number.toInt) (hsize : 1 ≤ size.toInt)
    (hpart : ¬ Int64.ofNat b.store.inner.records.size ≤ size) :
    (pageRead number size b.store.inner.records.size b).Satisfies
      (fun _ c => ¬ (b.store.inner.records.size / size.toInt < number.toInt ∧
        b.store.inner.Bottomless size) ∧ c.cache = b.cache)
      fun why _ => why = .endless ↔
        b.store.inner.records.size / size.toInt < number.toInt ∧
          b.store.inner.Bottomless size := by
  have htotal : (Int64.ofNat b.store.inner.records.size).toInt = b.store.inner.records.size :=
    Word.toInt_ofNat_of_le hmemory
  have hnonneg : 0 ≤ (Int64.ofNat b.store.inner.records.size).toInt := by omega
  rw [pageRead, if_neg hpart, ← htotal, Action.satisfies_bind]
  rcases PageWindow.of_cases hnonneg hsize hnumber with
    ⟨hlast, hwindow⟩ | ⟨hblock, hblockWindow⟩
  · -- The last page is searched for.
    rw [hwindow, Action.satisfies_orFault_ok, Action.satisfies_bind, Action.satisfies_report]
    apply (satisfies_lastMessages_end hb hcounts hserves hmemory hsize).imp
    · intro ms c hpost
      exact ⟨fun hsearch => hpost.1 hsearch.2, hpost.2⟩
    · intro why c hwhy
      exact hwhy.trans (and_iff_right hlast).symm
  · have hnot : ¬ ((Int64.ofNat b.store.inner.records.size).toInt / size.toInt < number.toInt ∧
        b.store.inner.Bottomless size) := fun hsearch => absurd hsearch.1 (Int.not_lt.mpr hblock)
    rcases hblockWindow with ⟨low, high, hwindow⟩ | hwindow
    · -- A block of ids is read with one query.
      rw [hwindow, Action.satisfies_orFault_ok, Action.satisfies_bind, Action.satisfies_report,
        readWindow, Action.satisfies_bind]
      apply (satisfies_range hb low high).imp
      · exact fun ms c hpost => ⟨hnot, hpost.2.2⟩
      · exact fun why c hpost => iff_of_false hpost.1.ne_endless hnot
    · rw [hwindow, Action.satisfies_orFault_error]
      exact iff_of_false (by simp) hnot

/-- A page is without end exactly if it searches for ever. -/
theorem satisfies_page_end (hb : Settled b) (hc : LawfulCache.Balanced b.cache) {n : Int}
    (hcounts : b.store.inner.Counts n) (hserves : ∀ method ∈ pageMethods, b.store.Serves method)
    (hmemory : (b.store.inner.records.size : Int) ≤ Word.greatest) {number size : Int64}
    (hnumber : 1 ≤ number.toInt) (hsize : 1 ≤ size.toInt) :
    (page number size b).Satisfies (fun _ _ => ¬ b.SearchesForEver number size)
      fun why _ => why = .endless ↔ b.SearchesForEver number size := by
  have htotal : (Int64.ofNat b.store.inner.records.size).toInt = b.store.inner.records.size :=
    Word.toInt_ofNat_of_le hmemory
  rw [page_of_valid (Page.valid_iff_toInt.mpr ⟨hnumber, hsize⟩), Action.satisfies_bind]
  apply (satisfies_count hb).imp
  · intro total c hpost
    obtain ⟨rfl, hread, hcache⟩ := hpost
    have hc' : LawfulCache.Balanced c.cache := hcache ▸ hc
    by_cases hwhole : Int64.ofNat b.store.inner.records.size ≤ size
    · -- A page that holds the whole board is the full list, which has an end.
      have hnot : ¬ b.SearchesForEver number size := by
        intro hsearch
        rw [Int64.le_iff_toInt_le, htotal] at hwhole
        exact absurd hsearch.part (Int.not_lt.mpr hwhole)
      rw [readThrough_of_whole hwhole, allCached_eq]
      have hends : ∀ cache : γ, (all false { c with cache }).Satisfies
          (fun _ d => ¬ False ∧ d.cache = cache) fun why _ => why = .endless ↔ False := by
        intro cache
        apply (satisfies_all ((hread.settled hb).withCache cache) false).imp
        · exact fun ms d hpost => ⟨id, hpost.2.2⟩
        · exact fun why d hpost => iff_of_false hpost.1.ne_endless id
      apply (satisfies_readThrough_end hc' hends).imp
      · exact fun _ _ _ => hnot
      · exact fun why _ hwhy => iff_of_false (fun hendless => (hwhy.mp hendless).2) hnot
    · -- The read before changed neither records nor counter.
      obtain ⟨gate, -, hinner⟩ := hread.store.inner
      have hrecords : c.store.inner.records = b.store.inner.records := by rw [hinner]
      have hcounts' : c.store.inner.Counts n := by rw [hinner]; exact hcounts
      have hiff : b.SearchesForEver number size ↔ c.found (Page.key number size) = .ok none ∧
          b.store.inner.records.size / size.toInt < number.toInt ∧
            b.store.inner.Bottomless size := by
        rw [found, hcache]
        constructor
        · intro hsearch
          exact ⟨hsearch.miss, hsearch.last, hsearch.bottomless⟩
        · intro hsearch
          rw [Int64.le_iff_toInt_le, htotal] at hwhole
          exact ⟨Int.not_le.mp hwhole, hsearch.2.1, hsearch.1, hsearch.2.2⟩
      rw [hiff, pageEntry, if_neg hwhole, ← hread.bottomless_iff]
      rw [← hrecords] at hwhole hmemory ⊢
      exact satisfies_readThrough_end hc' fun cache =>
        satisfies_pageRead_end (b := { c with cache }) ((hread.settled hb).withCache cache) hcounts'
          (fun method hmethod => hread.store.serves (hserves method hmethod)) hmemory hnumber hsize
          hwhole
  · intro why c hpost
    exact absurd (hserves _ (by simp [pageMethods, StoreCall.method])) hpost.1.not_serves

/-- What becomes of a page: how many queries it makes, and when it has an end. -/
structure Ending (b : Board (ObservedStore MemoryStore) γ) (number size : Int64) : Prop where
  queries : (page number size b).state.queries ≤ b.queries + 64
  /-- The search is one in rounds, of one query each, and a round that widens nothing is the
  last. -/
  rounds : ∀ lastId, ∃ rounds, rounds ≤ 64 ∧
    (searchLast size lastId size : Action (Board (ObservedStore MemoryStore) γ) (List Message))
      = searchFor size lastId rounds size >>= ended
  /-- With no more records than a word counts, a page has no end exactly if it searches for ever. -/
  endless : (b.store.inner.records.size : Int) ≤ Word.greatest →
    ((page number size b).answer = .error .endless ↔ b.SearchesForEver number size)
  /-- Then no number of rounds is enough. -/
  forEver : b.SearchesForEver number size → ∀ rounds,
    (searchFor size Int64.maxValue rounds size b).answer = .ok none ∧
      (searchFor size Int64.maxValue rounds size b).state.queries = b.queries + rounds

/-- On a store that serves its calls, whatever its records and its counter are, every page makes
sixty-four range queries at most and is answered or fails, unless it searches for ever. -/
theorem ending_page (hb : Settled b) (hc : LawfulCache.Balanced b.cache) {n : Int}
    (hcounts : b.store.inner.Counts n) (hserves : ∀ method ∈ pageMethods, b.store.Serves method)
    {number size : Int64} (hnumber : 1 ≤ number.toInt) (hsize : 1 ≤ size.toInt) :
    b.Ending number size := by
  refine ⟨asks_page number size b, ?_, ?_, ?_⟩
  · intro lastId
    exact searchLast_eq size lastId hsize (widest_of_pos hsize)
  · intro hmemory
    have hpage := satisfies_page_end hb hc hcounts hserves hmemory hnumber hsize
    constructor
    · intro hanswer
      exact (hpage.of_error hanswer).mp rfl
    · intro hforEver
      obtain ⟨why, hanswer, hwhy⟩ := hpage.stops fun _ _ h => h hforEver
      rw [hanswer, hwhy.mpr hforEver]
  · intro hforEver rounds
    have hsearch := satisfies_searchFor hb (hserves _ (by simp [pageMethods]))
      hforEver.bottomless.few rounds hsize
    obtain ⟨found, hanswer, rfl, hqueries⟩ := hsearch.answers fun _ _ => id
    exact ⟨hanswer, hqueries⟩

/-- A board whose counter was moved to the greatest word, with a record that has an id and one that
has none. -/
def raisedBoard (id : Int64) : Board (ObservedStore MemoryStore) MapCache :=
  let raised := (MemoryStore.increment Int64.maxValue {}).state
  let kept := raised.insertRaw 1 (Record.ofMessage { id, author := "a", text := "m" })
  { store := { inner := kept.insertRaw 2 (SortedMap.empty.insert Bin.author (.str "b")) }
    cache := {} }

private theorem counts_raisedBoard (id : Int64) :
    (raisedBoard id).store.inner.Counts Word.greatest :=
  .inr ⟨_, Int64.maxValue, rfl, rfl, by decide⟩

private theorem settled_raisedBoard (id : Int64) : Settled (raisedBoard id) :=
  ⟨rfl, rfl, fun _ _ => rfl⟩

private theorem serves_raisedBoard (id : Int64) (method : StoreMethod) :
    (raisedBoard id).store.Serves method :=
  .of_no_mishaps rfl rfl rfl method

/-- A message with the id one is found by the last of sixty-four rounds. -/
theorem ending_page_raised :
    (Settled (raisedBoard 1) ∧ LawfulCache.Balanced (raisedBoard 1).cache ∧
      (raisedBoard 1).store.inner.Counts Word.greatest ∧
      (∀ method ∈ pageMethods, (raisedBoard 1).store.Serves method) ∧
      1 ≤ (3 : Int64).toInt ∧ 1 ≤ (1 : Int64).toInt) ∧
    (raisedBoard 1).Ending 3 1 ∧
    (page 3 1 (raisedBoard 1)).answer ≠ .error .endless ∧
    (searchFor 1 Int64.maxValue 63 1 (raisedBoard 1)).answer = .ok none ∧
    (searchFor 1 Int64.maxValue 64 1 (raisedBoard 1)).answer
      = .ok (some [{ id := 1, author := "a", text := "m" }]) := by
  have hending : (raisedBoard 1).Ending 3 1 := ending_page (settled_raisedBoard 1) trivial
    (counts_raisedBoard 1) (fun method _ => serves_raisedBoard 1 method) (by decide) (by decide)
  have hends : ¬ (raisedBoard 1).SearchesForEver 3 1 := by
    intro h
    exact absurd h.bottomless.few (by decide +kernel)
  refine ⟨⟨settled_raisedBoard 1, trivial, counts_raisedBoard 1,
    fun method _ => serves_raisedBoard 1 method, by decide, by decide⟩, hending, ?_, ?_, ?_⟩
  · intro hanswer
    exact hends ((hending.endless (by decide +kernel)).mp hanswer)
  · decide +kernel
  · decide +kernel

/-- Without a message with a positive id no round of the search for one message is the last,
although the ids from zero on hold one. -/
theorem page_searches_for_ever :
    ((raisedBoard 0).index = Bin.id ∧
      (∀ method ∈ pageMethods, (raisedBoard 0).store.Serves method) ∧
      1 ≤ (3 : Int64).toInt ∧ 1 ≤ (1 : Int64).toInt) ∧
    (raisedBoard 0).store.inner.messagesIn 0 Int64.maxValue
      = [{ id := 0, author := "a", text := "m" }] ∧
    (page 3 1 (raisedBoard 0)).answer = .error .endless ∧
    ∀ rounds, (searchFor 1 Int64.maxValue rounds 1 (raisedBoard 0)).answer = .ok none ∧
      (searchFor 1 Int64.maxValue rounds 1 (raisedBoard 0)).state.queries = rounds := by
  have hfew : (((raisedBoard 0).store.inner.messagesIn 1 Int64.maxValue).length : Int)
      < (1 : Int64).toInt := by decide +kernel
  have hforEver : (raisedBoard 0).SearchesForEver 3 1 :=
    ⟨by decide +kernel, by decide +kernel, rfl, counts_raisedBoard 0, hfew⟩
  refine ⟨⟨rfl, fun method _ => serves_raisedBoard 0 method, by decide, by decide⟩,
    by decide +kernel, ?_, ?_⟩
  · have hpage := satisfies_page_end (settled_raisedBoard 0) trivial (counts_raisedBoard 0)
      (fun method _ => serves_raisedBoard 0 method) (by decide +kernel)
      (by decide : 1 ≤ (3 : Int64).toInt) (by decide : 1 ≤ (1 : Int64).toInt)
    obtain ⟨why, hanswer, hwhy⟩ := hpage.stops fun _ _ h => h hforEver
    rw [hanswer, hwhy.mpr hforEver]
  · intro rounds
    have hsearch := satisfies_searchFor (settled_raisedBoard 0) (serves_raisedBoard 0 _) hfew rounds
      (by decide : 1 ≤ (1 : Int64).toInt)
    obtain ⟨found, hanswer, rfl, hqueries⟩ := hsearch.answers fun _ _ => id
    refine ⟨hanswer, hqueries.trans ?_⟩
    -- No query was made before.
    exact Nat.zero_add rounds

end Board

end Guestbook
