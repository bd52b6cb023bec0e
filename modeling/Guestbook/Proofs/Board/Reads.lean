import Guestbook.Board
import Guestbook.Proofs.InStep
import Guestbook.Proofs.Message
import Guestbook.Proofs.Store.Log
import Guestbook.Proofs.Store.Observed

/-!
# Reads from the store

Reads that bypass the cache, on a board over a store in memory with any records. A read that is
served answers what the store holds and changes neither records nor counter. The search for the last
messages answers what a single query of all ids up to the counter would, because a range that holds
enough messages holds the ones with the highest ids.

## Main definitions
- `Settled`: a board whose store is idle and answers records in key order
- `Read`, `Stayed`: a board after a read that was served, and after one that was not

## Main statements
- `lastOf_filter`: the last messages of a range are the last messages
- `satisfies_all`, `satisfies_range`, `satisfies_count`: the plain reads
- `satisfies_searchLast_of_range`, `satisfies_searchLast`: the search for the last messages
- `inStep_readWindow_of_range`: two boards whose ranges hold the same messages
-/

namespace Guestbook

open Outcome (Satisfies)
open Guestbook.Action (InStep InStepUpTo)

namespace Board

/-- The last messages of those from an id on are the last messages, if there are enough of them. -/
theorem lastOf_filter {size low : Int64} {ms : List Message}
    (h : size.toInt.toNat ≤ (ms.filter fun m => low ≤ m.id).length) :
    lastOf size (ms.filter fun m => low ≤ m.id) = lastOf size ms := by
  -- After sorting, the messages of the range are a tail of all messages.
  have hfilter : ((Message.sortById ms).filter fun m => low ≤ m.id).length
      = (ms.filter fun m => low ≤ m.id).length := by
    rw [Message.filter_sortById, Message.length_sortById]
  have hle := List.length_filter_le (fun m : Message => decide (low ≤ m.id)) ms
  rw [lastOf, ← Message.filter_sortById, Message.filter_eq_drop (Message.pairwise_sortById ms),
    hfilter, Message.length_sortById, List.drop_drop, lastOf]
  congr 1
  omega

/-- The last messages do not depend on the order that they were read in. -/
theorem lastOf_congr {ms ms' : List Message} (h : Message.sortById ms = Message.sortById ms')
    (size : Int64) : lastOf size ms = lastOf size ms' := by
  rw [lastOf, lastOf, h, Message.length_eq_of_sortById_eq h]

variable {γ : Type} {b c d : Board (ObservedStore MemoryStore) γ}

/-! ## A board before and after a read -/

/-- No attempt to connect is in flight, range queries use the index over ids, and records are
answered in key order. -/
structure Settled (b : Board (ObservedStore MemoryStore) γ) : Prop where
  idle : b.store.inner.gate.connecting = false
  index : b.index = Bin.id
  inOrder : ∀ n records, b.store.arrange n records = records

/-- `c` is `b` after store calls that were served and changed no data. -/
structure Read (b c : Board (ObservedStore MemoryStore) γ) : Prop where
  store : b.store.Became b.store.inner c.store
  index : c.index = b.index

/-- `c` is `b` after a store call that was not served. -/
structure Stayed (b c : Board (ObservedStore MemoryStore) γ) : Prop where
  store : b.store.Untouched c.store
  index : c.index = b.index

theorem Settled.withCache (h : Settled b) (cache : γ) : Settled { b with cache } :=
  ⟨h.idle, h.index, h.inOrder⟩

/-- A store call that was served leaves the board settled. -/
theorem Settled.became (h : Settled b) {inner : MemoryStore} {store : ObservedStore MemoryStore}
    (hstore : b.store.Became inner store) : Settled { b with store } :=
  ⟨hstore.inner.idle, h.index, fun n records => by rw [hstore.arrange, h.inOrder]⟩

theorem Read.refl (h : b.store.inner.gate.connecting = false) : Read b b :=
  ⟨⟨.refl h, .refl _, rfl⟩, rfl⟩

theorem Read.withCache (h : Read b c) (cache : γ) : Read b { c with cache } := ⟨h.store, h.index⟩

theorem Read.stayed (h : Read b c) : Stayed b c := ⟨⟨h.store.inner, h.store.arrange⟩, h.index⟩

theorem Stayed.settled (h : Stayed b c) (hb : Settled b) : Settled c := by
  refine ⟨h.store.inner.idle, h.index.trans hb.index, ?_⟩
  rw [h.store.arrange]
  exact hb.inOrder

theorem Read.settled (h : Read b c) (hb : Settled b) : Settled c := h.stayed.settled hb

theorem Read.stayed_of_stayed (h : Read b c) (h' : Stayed c d) : Stayed b d :=
  ⟨⟨h.store.inner.trans h'.store.inner, h'.store.arrange.trans h.store.arrange⟩,
    h'.index.trans h.index⟩

theorem Read.trans (h : Read b c) (h' : Read c d) : Read b d :=
  ⟨⟨h.store.inner.trans h'.store.inner, h'.store.mishaps.trans h.store.mishaps,
    h'.store.arrange.trans h.store.arrange⟩, h'.index.trans h.index⟩

@[simp] theorem satisfies_atStore {σ γ α : Type} (a : Action σ α) {b : Board σ γ}
    {Q : α → Board σ γ → Prop} {E : Stop → Board σ γ → Prop} :
    (atStore a b).Satisfies Q E ↔
      (a b.store).Satisfies (fun x store => Q x { b with store })
        fun why store => E why { b with store } := Iff.rfl

/-- An action on the store inside is not observed. -/
theorem satisfies_inside {α : Type} (a : Action MemoryStore α)
    {Q : α → Board (ObservedStore MemoryStore) γ → Prop}
    {E : Stop → Board (ObservedStore MemoryStore) γ → Prop} :
    (atStore (ObservedStore.inside a) b).Satisfies Q E ↔
      (a b.store.inner).Satisfies (fun x inner => Q x { b with store := { b.store with inner } })
        fun why inner => E why { b with store := { b.store with inner } } := Iff.rfl

theorem Stayed.of_inside {inner : MemoryStore} (h : b.store.inner.Passed inner) :
    Stayed b { b with store := { b.store with inner } } := ⟨⟨h, rfl⟩, rfl⟩

/-! ## Plain reads -/

theorem satisfies_count (hb : Settled b) :
    (count b).Satisfies
      (fun n c => n = b.store.inner.records.size ∧ Read b c ∧ c.cache = b.cache)
      fun why c => b.store.Refuses .countAll why ∧ Stayed b c ∧ c.cache = b.cache := by
  unfold count
  rw [satisfies_atStore]
  apply (ObservedStore.satisfies_countAll hb.idle).imp
  · intro n store hpost
    obtain ⟨hn, hstore⟩ := hpost
    exact ⟨hn, ⟨hstore, rfl⟩, rfl⟩
  · intro why store hpost
    obtain ⟨hrefuses, hstore⟩ := hpost
    exact ⟨hrefuses, ⟨hstore, rfl⟩, rfl⟩

/-- All messages are those of the store, sorted when asked for. -/
theorem satisfies_all (hb : Settled b) (byTimestamp : Bool) :
    (all byTimestamp b).Satisfies
      (fun ms c => ms = (if byTimestamp then Message.sortByTimestamp b.store.inner.messages
        else b.store.inner.messages) ∧ Read b c ∧ c.cache = b.cache)
      fun why c => b.store.Refuses .scanAll why ∧ Stayed b c ∧ c.cache = b.cache := by
  unfold all
  rw [Action.satisfies_bind, satisfies_atStore]
  apply (ObservedStore.satisfies_scanAll hb.idle).imp
  · rintro records store ⟨⟨n, rfl⟩, hstore⟩
    rw [Action.satisfies_bind, Action.satisfies_reporting, hb.inOrder]
    exact ⟨rfl, ⟨hstore, rfl⟩, rfl⟩
  · intro why store hpost
    obtain ⟨hrefuses, hstore⟩ := hpost
    exact ⟨hrefuses, ⟨hstore, rfl⟩, rfl⟩

theorem satisfies_range (hb : Settled b) (low high : Int64) :
    (range low high b).Satisfies
      (fun ms c => ms = b.store.inner.messagesIn low high ∧ Read b c ∧ c.cache = b.cache)
      fun why c => b.store.Refuses (.queryByRange Bin.id low high) why ∧ Stayed b c ∧
        c.cache = b.cache := by
  unfold range
  rw [Action.satisfies_bind, Action.satisfies_state, Action.satisfies_bind, satisfies_atStore,
    hb.index]
  apply (ObservedStore.satisfies_queryByRange hb.idle low high).imp
  · rintro records store ⟨⟨n, rfl⟩, hstore⟩
    rw [Action.satisfies_reporting, hb.inOrder]
    exact ⟨rfl, ⟨hstore, hb.index.symm⟩, rfl⟩
  · intro why store hpost
    obtain ⟨hrefuses, hstore⟩ := hpost
    exact ⟨hrefuses, ⟨hstore, hb.index.symm⟩, rfl⟩

/-! ## The search for the last messages -/

/-- A search starts so many ids back, but not below zero. -/
theorem searchStart_eq (lastId : Int64) {span : Int64} (hspan : 1 ≤ span.toInt) :
    ∃ low, searchStart lastId span = .ok low ∧
      low.toInt = max 0 (lastId.toInt - (span.toInt - 1)) := by
  have hgreatest := Word.le_greatest span
  obtain ⟨reach, hreach, hreachValue⟩ := Word.sub_of_mem (a := span) (b := 1)
    (by rw [Word.toInt_one]; simp only [Word.least]; omega) (by rw [Word.toInt_one]; omega)
  rw [Word.toInt_one] at hreachValue
  refine ⟨max 0 (Word.saturatingSub lastId reach), ?_, ?_⟩
  · simp only [searchStart, hreach, bind, Except.bind]
    rfl
  · have hlast := Word.le_greatest lastId
    rw [Word.toInt_max, Word.saturatingSub, Word.toInt_clamp, Int64.toInt_zero, hreachValue]
    simp only [Word.least]
    omega

/-- A search whose ranges are, once sorted, those of one list of messages answers the last of the
list. It has no end only when the ids up to the greatest word are searched, which never reaches id
zero, and there are too few messages. -/
theorem satisfies_searchLast_of_range {σ γ : Type} [Store σ] {P : Board σ γ → Prop}
    {E : Stop → Board σ γ → Prop} {size lastId : Int64} (within : Int64 → List Message)
    (hwithin : ∀ low, 0 ≤ low → within low = (within 0).filter fun m => low ≤ m.id)
    (hrange : ∀ low b, P b →
      (range low lastId b).Satisfies
        (fun ms c => Message.sortById ms = Message.sortById (within low) ∧ P c) E)
    (hendless : ∀ b, P b → lastId.toInt = Word.greatest →
      Int64.ofNat (within 1).length < size → E .endless b)
    {span : Int64} (hspan : 1 ≤ span.toInt) {b : Board σ γ} (hb : P b) :
    (searchLast size lastId span b).Satisfies
      (fun ms c => ms = lastOf size (within 0) ∧ P c) E := by
  -- The span grows towards the greatest word, so its distance from there carries the induction.
  induction hdistance : (Word.greatest - span.toInt).toNat using Nat.strongRecOn
    generalizing b span with
  | ind distance ih =>
    subst hdistance
    obtain ⟨low, hlow, hlowValue⟩ := searchStart_eq lastId hspan
    unfold searchLast
    rw [hlow, Action.satisfies_bind, Action.satisfies_orFault_ok, Action.satisfies_bind]
    apply (hrange low b hb).imp
    · intro ms c hpost
      obtain ⟨hms, hc⟩ := hpost
      rw [Message.length_eq_of_sortById_eq hms, lastOf_congr hms]
      have hlowNonneg : 0 ≤ low := by
        rw [Int64.le_iff_toInt_le, Int64.toInt_zero, hlowValue]
        omega
      split
      · -- The search ends with enough messages, or with the range of all ids from zero on.
        next hdone =>
        refine ⟨?_, hc⟩
        rcases hdone with henough | rfl
        · rw [hwithin low hlowNonneg] at henough ⊢
          exact lastOf_filter (Word.toNat_le_of_le_ofNat henough)
        · rfl
      · next hmore =>
        obtain ⟨hfew, hpositive⟩ := not_or.mp hmore
        split
        · -- The search goes on with twice the span.
          next hwider =>
          have hwider' : 1 ≤ (Word.saturatingDouble span).toInt := by omega
          have hnear := Word.le_greatest (Word.saturatingDouble span)
          exact ih _ (by omega) hwider' hc rfl
        · next hwidest =>
          -- The span is the greatest word, and the range it reaches down to starts at one.
          rw [Word.toInt_saturatingDouble (by omega)] at hwidest
          have hlast := Word.le_greatest lastId
          have hlowPositive : low.toInt ≠ 0 := fun h => hpositive (Int64.toInt.inj h)
          have hone : low = 1 := by
            apply Int64.toInt.inj
            rw [Word.toInt_one]
            omega
          subst hone
          exact hendless c hc (by omega) (Int64.not_le.mp hfew)
    · intro why c hwhy
      exact hwhy

/-- The search for the last messages answers the last of all messages up to `lastId`. It stops when
one of its queries is refused, the first or a later one. It has no end only when the ids up to the
greatest word are searched, which never reaches id zero, and there are too few messages. -/
theorem satisfies_searchLast (hb : Settled b) (size lastId span : Int64)
    (hspan : 1 ≤ span.toInt) :
    (searchLast size lastId span b).Satisfies
      (fun ms c => ms = lastOf size (b.store.inner.messagesIn 0 lastId) ∧ Read b c ∧
        c.cache = b.cache)
      fun why c => ((∃ low d, Read b d ∧ d.store.Refuses (.queryByRange Bin.id low lastId) why) ∨
          why = .endless ∧ lastId.toInt = Word.greatest ∧
            Int64.ofNat (b.store.inner.messagesIn 1 lastId).length < size) ∧
        Stayed b c ∧ c.cache = b.cache := by
  refine satisfies_searchLast_of_range (P := fun c => Read b c ∧ c.cache = b.cache)
    (fun low => b.store.inner.messagesIn low lastId) ?_ ?_ ?_ hspan ⟨.refl hb.idle, rfl⟩
  · intro low hlow
    exact b.store.inner.messagesIn_eq_filter hlow
  · -- The reads before changed no records.
    intro low c hc
    obtain ⟨hread, hcache⟩ := hc
    apply (satisfies_range (hread.settled hb) low lastId).imp
    · intro ms d hpost
      obtain ⟨hms, hread', hcache'⟩ := hpost
      rw [hread.store.inner.messagesIn] at hms
      exact ⟨congrArg _ hms, hread.trans hread', hcache'.trans hcache⟩
    · intro why d hpost
      obtain ⟨hrefuses, hstayed, hcache'⟩ := hpost
      exact ⟨.inl ⟨low, c, hread, hrefuses⟩, hread.stayed_of_stayed hstayed, hcache'.trans hcache⟩
  · intro c hc hgreatest hfew
    exact ⟨.inr ⟨rfl, hgreatest, hfew⟩, hc.1.stayed, hc.2⟩

/-! ## Windows of two boards -/

section InStep

variable {σ τ γ' : Type} [Store σ] [Store τ] {R : Board σ γ → Board τ γ' → Prop}
  (hrange : ∀ low high,
    InStepUpTo (fun ms ms' => Message.sortById ms = Message.sortById ms') R (range low high)
      (range low high))
include hrange

/-- The search goes on or ends by the number of messages found, and sorts them at its end. -/
theorem inStep_searchLast_of_range (size lastId span : Int64) :
    InStep R (searchLast size lastId span) (searchLast size lastId span) := by
  -- The span grows towards the greatest word, so its distance from there carries the induction.
  induction hdistance : (Word.greatest - span.toInt).toNat using Nat.strongRecOn
    generalizing span with
  | ind distance ih =>
    subst hdistance
    unfold searchLast
    apply (Action.inStep_orFault _).bind
    intro low
    apply (hrange low lastId).bind
    intro ms ms' hms
    rw [Message.length_eq_of_sortById_eq hms]
    split
    · -- The search ends.
      rw [lastOf_congr hms]
      exact Action.inStep_pure _
    · split
      · -- It goes on with twice the span.
        next hwider =>
        have hnear := Word.le_greatest (Word.saturatingDouble span)
        exact ih _ (by omega) _ rfl
      · exact Action.inStep_stop _

/-- Windows sort what they read, so boards whose ranges hold the same messages read the same. -/
theorem inStep_readWindow_of_range (hcounter : InStep R (atStore Store.counter)
      (atStore Store.counter)) (size : Int64) (window : PageWindow) :
    InStep R (readWindow size window) (readWindow size window) := by
  cases window with
  | ids low high =>
    apply (hrange low high).bind
    intro ms ms' hms
    rw [hms]
    exact Action.inStep_pure _
  | last => exact hcounter.bind fun lastId => inStep_searchLast_of_range hrange size lastId size

end InStep

end Board

end Guestbook
