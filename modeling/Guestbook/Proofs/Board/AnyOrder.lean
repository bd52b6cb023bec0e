import Guestbook.Cache.Backend
import Guestbook.Proofs.Board.ReadThrough
import Guestbook.Proofs.Board.Reads

/-!
# Pages over stores that answer in any order

A store promises no order for the records of a range query. On two boards whose stores hold the same
records and answer them in whatever order, from call to call, a page is the same list after the same
calls: messages with distinct ids are the same once sorted, and the search for the last ones looks
at nothing of a range but its length before it sorts.

## Main definitions
- `Record.DistinctIds`: records with an integer id each, no two of them the same
- `Store.Holds`: a store of some records that answers ranges in any order
- `Board.Rearranged`: two boards over such stores

## Main statements
- `Record.DistinctIds.sortById_of_perm`: the order of the records is lost by sorting
- `Board.inStep_readWindow`: what a page reads on two such boards
- `Board.page_of_rearranged`: a page on two such boards
-/

namespace Guestbook

open Outcome (Satisfies)
open Guestbook.Action (InStep InStepUpTo)

/-! ## Records with distinct ids -/

namespace Record

/-- Every record has an integer id, and no other record has the same. -/
structure DistinctIds (records : List Record) : Prop where
  integers : ∀ r ∈ records, ∃ n, r.find? Bin.id = some (.int n)
  nodup : (records.map fun r => r.find? Bin.id).Nodup

namespace DistinctIds

variable {records records' : List Record}

theorem filter (h : DistinctIds records) (p : Record → Bool) : DistinctIds (records.filter p) where
  integers := fun r hr => h.integers r (List.mem_filter.mp hr).1
  nodup := h.nodup.sublist (List.filter_sublist.map _)

/-- The messages of such records have distinct ids. -/
theorem nodup_messages (h : DistinctIds records) :
    (((toMessages records).1).map Message.id).Nodup := by
  rw [fst_toMessages, List.map_map]
  -- The id of a message is the integer in the bin.
  apply List.Nodup.of_map fun n => some (BinValue.int n)
  rw [List.map_map]
  have hbins : records.map
      ((fun n => some (BinValue.int n)) ∘ Message.id ∘ fun r => (toMessage r).1)
      = records.map fun r => r.find? Bin.id := by
    apply List.map_congr_left
    intro r hr
    obtain ⟨n, hn⟩ := h.integers r hr
    show some (BinValue.int (r.readInt Bin.id).1) = _
    rw [readInt, hn]
  rw [hbins]
  exact h.nodup

/-- The order in which such records are read is lost by sorting their messages. -/
theorem sortById_of_perm (h : DistinctIds records) (hperm : records'.Perm records) :
    Message.sortById (toMessages records').1 = Message.sortById (toMessages records).1 :=
  (Message.sortById_eq_of_perm (hperm.symm.map _) h.nodup_messages).symm

end DistinctIds

end Record

/-! ## Stores that promise no order -/

section Stores

variable {σ α : Type} [Store σ] {P : σ → Prop} {index : String} {records : List Record}
  {lastId : Int64}

/-- Calls on a store in one of the states `P` are served and leave it in one of them. It counts some
records, its counter stands at `lastId`, and a range query over the index of ids answers the records
in the range, in whatever order. -/
structure Store.Holds (P : σ → Prop) (index : String) (records : List Record) (lastId : Int64) :
    Prop where
  countAll : ∀ s, P s →
    (Store.countAll s).Satisfies (fun n t => n = records.length ∧ P t) fun _ _ => False
  counter : ∀ s, P s →
    (Store.counter s).Satisfies (fun n t => n = lastId ∧ P t) fun _ _ => False
  queryByRange : ∀ low high s, P s →
    (Store.queryByRange index low high s).Satisfies
      (fun answer t => answer.Perm (records.filter (MemoryStore.inRange Bin.id low high)) ∧ P t)
      fun _ _ => False

/-- A store in memory that can be reached and works holds its records. -/
theorem MemoryStore.holds {s : MemoryStore} (hreachable : s.reachable = true)
    (hworking : s.failing = false) {r : Record} (hcounter : s.counterRecord = some r)
    (hcount : r.find? Bin.count = some (.int lastId)) :
    Store.Holds s.Passed Bin.id s.records.values lastId := by
  have hunreached : ∀ {why t}, s.Passed t → ¬ t.Unreached why := by
    rintro why t ⟨gate, -, rfl⟩ h
    exact Bool.false_ne_true (h.1.symm.trans hreachable)
  have hrefused : ∀ {cause why t}, s.Passed t → ¬ t.Refused cause why := by
    intro cause why t ht h
    rcases h with h | h
    · exact hunreached ht h
    · obtain ⟨gate, -, rfl⟩ := ht
      exact Bool.false_ne_true (hworking.symm.trans h.1)
  constructor
  · intro t ht
    apply (satisfies_countAll ht.idle).imp
    · rintro n u ⟨⟨-, rfl⟩, hu⟩
      obtain ⟨gate, -, rfl⟩ := id ht
      exact ⟨(List.length_map _).symm, ht.trans hu⟩
    · exact fun why u h => hrefused ht h.1
  · intro t ht
    have hcounts : t.Counts lastId.toInt := by
      obtain ⟨gate, -, rfl⟩ := ht
      exact .inr ⟨r, lastId, hcounter, hcount, rfl⟩
    apply (satisfies_counter ht.idle hcounts).imp
    · rintro n u ⟨⟨-, hn⟩, hu⟩
      exact ⟨Int64.toInt.inj hn, ht.trans hu⟩
    · rintro why u ⟨h | ⟨hnone, -⟩, -⟩
      · exact hunreached ht h
      · obtain ⟨gate, -, rfl⟩ := ht
        exact nomatch hnone.symm.trans hcounter
  · intro low high t ht
    apply (satisfies_queryByRange ht.idle low high).imp
    · rintro answer u ⟨⟨-, rfl⟩, hu⟩
      obtain ⟨gate, -, rfl⟩ := id ht
      exact ⟨.refl _, ht.trans hu⟩
    · exact fun why u h => hrefused ht h.1

namespace ObservedStore

/-- Every call reaches the store inside, which is in one of the states `P`, and the records of its
answers are at most put in another order. -/
structure Relays (P : σ → Prop) (s : ObservedStore σ) : Prop where
  inner : P s.inner
  mishaps : s.mishaps = []
  permutes : ∀ n records, (s.arrange n records).Perm records

variable {s : ObservedStore σ} {a : Action σ α} {X : α → Prop}

omit [Store σ] in
/-- A call is answered by the store inside and noted. -/
theorem Relays.satisfies_observe (hs : s.Relays P) (call : StoreCall)
    (ha : (a s.inner).Satisfies (fun x t => X x ∧ P t) fun _ _ => False) :
    (observe call a s).Satisfies
      (fun x t => X x ∧ t.Relays P ∧ t.calls = call :: s.calls) fun _ _ => False := by
  have hspared : s.mishapFor? call.method = none := by
    rw [mishapFor?, hs.mishaps]
    rfl
  have hnothing : (s.withoutMishap call.method).mishaps = [] := by
    rw [withoutMishap, hs.mishaps]
    rfl
  rw [observe_of_spared hspared, inside, Action.satisfies_on]
  refine ha.imp ?_ fun _ _ => id
  intro x inner hx
  exact ⟨hx.1, ⟨hx.2, hnothing, hs.permutes⟩, rfl⟩

theorem Relays.satisfies_queryByRange (hs : s.Relays P)
    (hholds : Store.Holds P index records lastId) (low high : Int64) :
    (Store.queryByRange index low high s).Satisfies
      (fun answer t => answer.Perm (records.filter (MemoryStore.inRange Bin.id low high)) ∧
        t.Relays P ∧ t.calls = .queryByRange index low high :: s.calls) fun _ _ => False := by
  show (arranged (observe (.queryByRange index low high) _) s).Satisfies _ _
  unfold arranged
  rw [Action.satisfies_bind]
  refine (hs.satisfies_observe _ (hholds.queryByRange low high _ hs.inner)).imp ?_ fun _ _ => id
  intro answer t hpost
  obtain ⟨hperm, ht, hcalls⟩ := hpost
  rw [Action.satisfies_bind, Action.satisfies_state, Action.satisfies_pure]
  exact ⟨(ht.permutes _ _).trans hperm, ht, hcalls⟩

end ObservedStore

end Stores

/-! ## One board -/

namespace Board

variable {σ τ γ α : Type} [Store σ] [Store τ] {P : σ → Prop} {Q : τ → Prop} {index : String}
  {records : List Record} {lastId number size : Int64}

/-- A board whose store relays its calls to a store in one of the states `P`. -/
structure Holding (P : σ → Prop) (index : String) (b : Board (ObservedStore σ) γ) : Prop where
  store : b.store.Relays P
  index : b.index = index

/-- `c` is `b` after one call on the store. -/
structure Called (P : σ → Prop) (index : String) (call : StoreCall)
    (b c : Board (ObservedStore σ) γ) : Prop where
  holding : Holding P index c
  calls : c.store.calls = call :: b.store.calls
  cache : c.cache = b.cache

section OneBoard

variable {b : Board (ObservedStore σ) γ} (hholds : Store.Holds P index records lastId)
include hholds

theorem satisfies_count_of_holds (hb : Holding P index b) :
    (count b).Satisfies (fun n c => n = records.length ∧ Called P index .countAll b c)
      fun _ _ => False := by
  unfold count
  rw [satisfies_atStore]
  refine (hb.store.satisfies_observe .countAll (hholds.countAll _ hb.store.inner)).imp ?_
    fun _ _ => id
  intro n store hpost
  obtain ⟨hn, hstore, hcalls⟩ := hpost
  exact ⟨hn, ⟨hstore, hb.index⟩, hcalls, rfl⟩

theorem satisfies_counter_of_holds (hb : Holding P index b) :
    (atStore Store.counter b).Satisfies (fun n c => n = lastId ∧ Called P index .counter b c)
      fun _ _ => False := by
  rw [satisfies_atStore]
  refine (hb.store.satisfies_observe .counter (hholds.counter _ hb.store.inner)).imp ?_
    fun _ _ => id
  intro n store hpost
  obtain ⟨hn, hstore, hcalls⟩ := hpost
  exact ⟨hn, ⟨hstore, hb.index⟩, hcalls, rfl⟩

/-- The messages of a range are, once sorted, those of the records in the range. -/
theorem satisfies_range_of_holds (hdistinct : Record.DistinctIds records) (hb : Holding P index b)
    (low high : Int64) :
    (range low high b).Satisfies
      (fun ms c => Message.sortById ms = Message.sortById
          (Record.toMessages (records.filter (MemoryStore.inRange Bin.id low high))).1 ∧
        Called P index (.queryByRange index low high) b c) fun _ _ => False := by
  unfold range
  rw [Action.satisfies_bind, Action.satisfies_state, Action.satisfies_bind, satisfies_atStore,
    hb.index]
  refine (hb.store.satisfies_queryByRange hholds low high).imp ?_ fun _ _ => id
  intro answer store hpost
  obtain ⟨hperm, hstore, hcalls⟩ := hpost
  rw [Action.satisfies_reporting]
  exact ⟨(hdistinct.filter _).sortById_of_perm hperm, ⟨hstore, rfl⟩, hcalls, rfl⟩

/-- The search for the last messages comes to an end below the greatest word, and the messages of a
window are answered without a change of the cache. -/
theorem satisfies_readWindow_of_holds (hdistinct : Record.DistinctIds records)
    (hlastId : lastId.toInt < Word.greatest) (hsize : 1 ≤ size.toInt) (hb : Holding P index b)
    (window : PageWindow) :
    (readWindow size window b).Satisfies (fun _ c => c.cache = b.cache) fun _ _ => False := by
  cases window with
  | ids low high =>
    rw [readWindow, Action.satisfies_bind]
    refine (satisfies_range_of_holds hholds hdistinct hb low high).imp ?_ fun _ _ => id
    intro ms c hpost
    exact hpost.2.cache
  | last =>
    rw [readWindow, lastMessages, Action.satisfies_bind]
    refine (satisfies_counter_of_holds hholds hb).imp ?_ fun _ _ => id
    rintro n c ⟨rfl, hc⟩
    have hsearch : (searchLast size n size c).Satisfies
        (fun ms d => ms = lastOf size
            (Record.toMessages (records.filter (MemoryStore.inRange Bin.id 0 n))).1 ∧
          Holding P index d ∧ d.cache = b.cache) fun _ _ => False := by
      apply satisfies_searchLast_of_range (fun low =>
        (Record.toMessages (records.filter (MemoryStore.inRange Bin.id low n))).1) _ _ _ hsize
      · exact ⟨hc.holding, hc.cache⟩
      · exact fun low hlow => MemoryStore.map_filter_inRange records hlow
      · intro low d hd
        refine (satisfies_range_of_holds hholds hdistinct hd.1 low n).imp ?_ fun _ _ => id
        intro ms e hpost
        exact ⟨hpost.1, hpost.2.holding, hpost.2.cache.trans hd.2⟩
      · -- The counter is not at the greatest word.
        intro d hd hgreatest
        omega
    exact hsearch.imp (fun ms d hpost => hpost.2.2) fun _ _ => id

end OneBoard

/-! ## Two boards -/

/-- Two boards with the same cache, whose stores relay to stores in the states `P` and `Q` and have
noted the same calls. -/
structure Rearranged (P : σ → Prop) (Q : τ → Prop) (index : String)
    (b : Board (ObservedStore σ) γ) (c : Board (ObservedStore τ) γ) : Prop where
  left : Holding P index b
  right : Holding Q index c
  calls : c.store.calls = b.store.calls
  cache : c.cache = b.cache

omit [Store σ] [Store τ] in
/-- The same call, answered with the same property on either board. -/
theorem inStepUpTo_call {a : Action (Board (ObservedStore σ) γ) α}
    {a' : Action (Board (ObservedStore τ) γ) α} {X : α → Prop} {call : StoreCall}
    (ha : ∀ b, Holding P index b →
      (a b).Satisfies (fun x c => X x ∧ Called P index call b c) fun _ _ => False)
    (ha' : ∀ b, Holding Q index b →
      (a' b).Satisfies (fun x c => X x ∧ Called Q index call b c) fun _ _ => False) :
    InStepUpTo (fun x y => X x ∧ X y) (Rearranged P Q index) a a' := by
  apply InStepUpTo.of_satisfies (fun b c h => ha b h.left) (fun b c h => ha' c h.right)
  intro b c h x b' y c' hb hc
  refine ⟨⟨hb.1, hc.1⟩, hb.2.holding, hc.2.holding, ?_, ?_⟩
  · rw [hc.2.calls, hb.2.calls, h.calls]
  · rw [hc.2.cache, hb.2.cache, h.cache]

omit [Store σ] [Store τ] in
/-- The caches are the same, so what is done to them has the same effect. -/
theorem inStep_atCache (a : Action γ α) :
    InStep (Rearranged P Q index) (atCache a : Action (Board (ObservedStore σ) γ) α)
      (atCache a : Action (Board (ObservedStore τ) γ) α) := by
  have hsame : InStep Eq a a := fun cache cache' h => h ▸ ⟨rfl, rfl⟩
  apply hsame.on
  · exact fun b c h => h.cache.symm
  · intro b c cache cache' h hcache
    exact ⟨⟨h.left.store, h.left.index⟩, ⟨h.right.store, h.right.index⟩, h.calls, hcache.symm⟩

section TwoBoards

variable (hσ : Store.Holds P index records lastId) (hτ : Store.Holds Q index records lastId)
  (hdistinct : Record.DistinctIds records)
include hσ hτ hdistinct

/-- The messages of a range are the same once sorted. -/
theorem inStepUpTo_range (low high : Int64) :
    InStepUpTo (fun ms ms' => Message.sortById ms = Message.sortById ms') (Rearranged P Q index)
      (range low high : Action (Board (ObservedStore σ) γ) (List Message))
      (range low high : Action (Board (ObservedStore τ) γ) (List Message)) := by
  have hcall : InStepUpTo _ (Rearranged P Q index)
      (range low high : Action (Board (ObservedStore σ) γ) (List Message))
      (range low high : Action (Board (ObservedStore τ) γ) (List Message)) :=
    inStepUpTo_call (fun b hb => satisfies_range_of_holds hσ hdistinct hb low high)
      fun c hc => satisfies_range_of_holds hτ hdistinct hc low high
  exact hcall.mono fun ms ms' hms => hms.1.trans hms.2.symm

theorem inStep_readWindow (size : Int64) (window : PageWindow) :
    InStep (Rearranged P Q index)
      (readWindow size window : Action (Board (ObservedStore σ) γ) (List Message))
      (readWindow size window : Action (Board (ObservedStore τ) γ) (List Message)) := by
  apply inStep_readWindow_of_range (inStepUpTo_range hσ hτ hdistinct)
  apply InStepUpTo.inStep (inStepUpTo_call (fun b => satisfies_counter_of_holds hσ)
    fun c => satisfies_counter_of_holds hτ)
  rintro n n' ⟨rfl, rfl⟩
  rfl

end TwoBoards

/-! ## Pages -/

variable [Cache γ]

section Pages

variable (hσ : Store.Holds P index records lastId) (hdistinct : Record.DistinctIds records)
include hσ hdistinct

/-- A page that is smaller than the board does not pass on the order of the store. -/
theorem inStep_page (hτ : Store.Holds Q index records lastId)
    (htotal : size < Int64.ofNat records.length) (number : Int64) :
    InStep (Rearranged P Q index)
      (page number size : Action (Board (ObservedStore σ) γ) (List Message))
      (page number size : Action (Board (ObservedStore τ) γ) (List Message)) := by
  by_cases hvalid : number < 1 ∨ size < 1
  · rw [page_of_invalid hvalid, page_of_invalid hvalid]
    exact Action.inStep_fail _
  · rw [page_of_valid hvalid, page_of_valid hvalid]
    apply (inStepUpTo_call (fun b => satisfies_count_of_holds hσ)
      fun c => satisfies_count_of_holds hτ).bind
    rintro n n' ⟨rfl, rfl⟩
    apply inStep_readThrough (inStep_atCache _) fun _ _ => inStep_atCache _
    -- The board is larger than the page, so the page reads a window.
    rw [pageRead, if_neg (Int64.not_le.mpr htotal), pageRead, if_neg (Int64.not_le.mpr htotal)]
    apply (Action.inStep_orFault _).bind
    intro window
    apply (Action.inStep_report _).bind
    intro _
    exact inStep_readWindow hσ hτ hdistinct size window

/-- A page that is smaller than the board and not in the cache is answered, if a word numbers the
pages and the cache takes or declines the offer. -/
theorem satisfies_page_of_holds (hlastId : lastId.toInt < Word.greatest)
    (hnumber : 1 ≤ number.toInt) (hsize : 1 ≤ size.toInt)
    (htotal : size < Int64.ofNat records.length)
    (hfits : (Int64.ofNat records.length).toInt / size.toInt < Word.greatest)
    {b : Board (ObservedStore σ) γ} (hb : Holding P index b)
    (hmiss : (Cache.get (Page.key number size) b.cache).answer = .ok none)
    (hoffer : ∀ bytes cost, ∃ accepted,
      (Cache.set (Page.key number size) bytes cost
        (Cache.get (Page.key number size) b.cache).state).answer = .ok accepted) :
    (page number size b).Satisfies (fun _ _ => True) fun _ _ => False := by
  rw [page_of_valid (Page.valid_iff_toInt.mpr ⟨hnumber, hsize⟩), Action.satisfies_bind]
  refine (satisfies_count_of_holds hσ hb).imp ?_ fun _ _ => id
  rintro n c ⟨rfl, hc⟩
  have hpart : ¬ Int64.ofNat records.length ≤ size := Int64.not_le.mpr htotal
  rw [pageEntry, if_neg hpart, pageRead, if_neg hpart]
  -- The look-up misses.
  have hcached : (cached (Page.key number size) c).Satisfies
      (fun found d => found = none ∧ Holding P index d ∧
        d.cache = (Cache.get (Page.key number size) b.cache).state) fun _ _ => False := by
    unfold cached atCache
    rw [Action.satisfies_bind, Action.satisfies_on, hc.cache, Outcome.satisfies_iff_of_ok hmiss]
    exact ⟨rfl, ⟨hc.holding.store, hc.holding.index⟩, rfl⟩
  refine satisfies_readThrough hcached (fun _ _ _ => trivial) ?_
  rintro d ⟨-, hd, hcache⟩
  rw [Action.satisfies_bind]
  obtain ⟨window, hwindow⟩ :
      ∃ window, PageWindow.of number size (Int64.ofNat records.length) = .ok window := by
    rw [Int64.lt_iff_toInt_lt] at htotal
    by_cases hlast : (Int64.ofNat records.length).toInt / size.toInt < number.toInt
    · exact ⟨_, PageWindow.of_last (by omega) hsize hfits hlast⟩
    · obtain ⟨low, high, hids, -⟩ :=
        PageWindow.of_regular (by omega) hsize hfits hnumber (by omega)
      exact ⟨_, hids⟩
  rw [hwindow, Action.satisfies_orFault_ok, Action.satisfies_bind, Action.satisfies_report]
  refine (satisfies_readWindow_of_holds hσ hdistinct hlastId hsize hd window).imp ?_ fun _ _ => id
  intro ms e he
  unfold populate atCache
  rw [Action.satisfies_bind, Action.satisfies_on, he, hcache]
  obtain ⟨accepted, haccepted⟩ :=
    hoffer (Json.encodeMessages ms) (UInt64.ofNat (Json.encodeMessages ms).length)
  rw [Outcome.satisfies_iff_of_ok haccepted]
  cases accepted <;> trivial

/-- On boards over stores with the same records, a page that is smaller than the board is the same
list after the same calls, in whatever orders the stores answer. -/
theorem page_of_rearranged (hτ : Store.Holds Q index records lastId)
    (hlastId : lastId.toInt < Word.greatest) (hnumber : 1 ≤ number.toInt) (hsize : 1 ≤ size.toInt)
    (htotal : size < Int64.ofNat records.length) {b : Board (ObservedStore σ) γ}
    {c : Board (ObservedStore τ) γ} (h : Rearranged P Q index b c)
    (hmiss : (Cache.get (Page.key number size) b.cache).answer = .ok none) :
    ((page number size b).answer = (page number size c).answer ∧
      (page number size b).state.store.calls = (page number size c).state.store.calls) ∧
    -- There is such a list, if a word numbers the pages and the cache does not stop at the offer.
    ((Int64.ofNat records.length).toInt / size.toInt < Word.greatest →
      (∀ bytes cost, ∃ accepted,
        (Cache.set (Page.key number size) bytes cost
          (Cache.get (Page.key number size) b.cache).state).answer = .ok accepted) →
      ∃ ms, (page number size b).answer = .ok ms) := by
  obtain ⟨hanswer, hstate⟩ := inStep_page hσ hdistinct hτ htotal number b c h
  refine ⟨⟨hanswer, hstate.calls.symm⟩, ?_⟩
  intro hfits hoffer
  obtain ⟨ms, hms, -⟩ := (satisfies_page_of_holds hσ hdistinct hlastId hnumber hsize htotal hfits
    h.left hmiss hoffer).answers fun _ _ => id
  exact ⟨ms, hms⟩

end Pages

/-! ## Two orders of one store -/

/-- Messages under scattered ids, with a counter far above them. -/
def scatteredMessages : List Message :=
  [{ id := 2, author := "a", text := "x" }, { id := 3, author := "b", text := "y" },
    { id := 11, author := "a", text := "z" }, { id := 90, author := "c", text := "w" }]

/-- A store of messages under scattered ids. -/
def scatteredStore : MemoryStore where
  records := .ofList (scatteredMessages.map fun m => (m.id, Record.ofMessage m))
  counterRecord := some (.ofList [(Bin.count, .int 100)])

/-- A board on that store which arranges the records of its answers. -/
def scatteredBoard (arrange : Nat → List Record → List Record) :
    Board (ObservedStore MemoryStore) MapCache where
  store := { inner := scatteredStore, arrange }
  cache := {}

theorem values_scatteredStore :
    scatteredStore.records.values = scatteredMessages.map Record.ofMessage := rfl

theorem distinctIds_scatteredStore : Record.DistinctIds scatteredStore.records.values where
  integers := by
    intro r hr
    rw [values_scatteredStore] at hr
    obtain ⟨m, -, rfl⟩ := List.mem_map.mp hr
    exact ⟨m.id, Record.find?_ofMessage_id m⟩
  nodup := by
    rw [values_scatteredStore, List.map_map]
    simp only [Function.comp_def, Record.find?_ofMessage_id]
    decide

/-- The last three of four messages, with the records of one board reversed and those of the other
rotated by the number of calls. -/
theorem page_of_rearranged_scattered :
    let b := scatteredBoard fun _ records => records.reverse
    let c := scatteredBoard fun n records => records.drop n ++ records.take n
    ((page 2 3 b).answer = (page 2 3 c).answer ∧
      (page 2 3 b).state.store.calls = (page 2 3 c).state.store.calls) ∧
      ∃ ms, (page 2 3 b).answer = .ok ms := by
  intro b c
  have hholds : Store.Holds scatteredStore.Passed Bin.id scatteredStore.records.values 100 :=
    MemoryStore.holds rfl rfl rfl rfl
  have hrearranged : Rearranged scatteredStore.Passed scatteredStore.Passed Bin.id b c := by
    refine ⟨⟨⟨.refl rfl, rfl, ?_⟩, rfl⟩, ⟨⟨.refl rfl, rfl, ?_⟩, rfl⟩, rfl, rfl⟩
    · exact fun n records => records.reverse_perm
    · intro n records
      exact List.perm_append_comm.trans (.of_eq (List.take_append_drop n records))
  have hpage := page_of_rearranged hholds distinctIds_scatteredStore hholds (by decide)
    (show 1 ≤ (2 : Int64).toInt by decide) (show 1 ≤ (3 : Int64).toInt by decide) (by decide)
    hrearranged rfl
  exact ⟨hpage.1, hpage.2 (by decide) fun bytes cost => ⟨true, rfl⟩⟩

end Board

end Guestbook
