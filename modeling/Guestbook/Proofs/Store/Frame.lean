import Guestbook.Proofs.Store.Observed

/-!
# What operations of a store leave alone

An operation of a store touches the gate, the records or the counter. One that writes neither
records nor counter keeps every property that is kept at the gate. This holds in any state, also
while an attempt to connect is in flight, and whatever goes wrong on the way.

## Main definitions
- `Store.ReadsKeep`, `Store.CallsKeep`: the reads of a store, or all its operations, keep a property
- `MemoryStore.SameData`: the same records and the same counter
- `MemoryStore.Advanced`: what an increment leaves

## Main statements
- `MemoryStore.readsKeep`, `ObservedStore.readsKeep`: the reads of the stores
- `MemoryStore.satisfies_put_any`, `satisfies_delete_any`, `satisfies_increment_any`: the writes
-/

namespace Guestbook

open Guestbook.Action (Preserves preserves_pure preserves_fail preserves_state preserves_orFail
  preserves_orFault)

/-! ## Operations of a store -/

/-- Whether an operation writes records or counter. -/
def StoreMethod.writes : StoreMethod → Bool
  | put | delete | increment => true
  | _ => false

namespace Store

variable {σ : Type} [Store σ]

/-- The operations of a store that write neither records nor counter keep a property. -/
structure ReadsKeep (P : σ → Prop) : Prop where
  queryByRange : ∀ index low high,
    Preserves P (Store.queryByRange index low high : Action σ (List Record))
  scanAll : Preserves P (Store.scanAll : Action σ (List Record))
  countAll : Preserves P (Store.countAll : Action σ Nat)
  counter : Preserves P (Store.counter : Action σ Int64)
  awaitReady : ∀ timeout, Preserves P (Store.awaitReady timeout : Action σ Unit)
  close : Preserves P (Store.close : Action σ Unit)

/-- All operations of a store keep a property. -/
structure CallsKeep (P : σ → Prop) : Prop extends ReadsKeep P where
  put : ∀ key r, Preserves P (Store.put key r : Action σ Unit)
  delete : ∀ key, Preserves P (Store.delete key : Action σ Bool)
  increment : ∀ amount, Preserves P (Store.increment amount : Action σ Int64)

end Store

namespace MemoryStore

variable {inner : MemoryStore} {P : MemoryStore → Prop} {α : Type}

theorem preserves_connected {a : Action MemoryStore α} (hconnection : Preserves P connection)
    (ha : Preserves P a) : Preserves P (connected a) :=
  hconnection.bind fun _ => ha

/-- A switch that makes queries, scans and counts fail is only looked at. -/
theorem preserves_requireWorking (cause : String → BoardError) :
    Preserves P (requireWorking cause) := by
  intro s hs
  unfold requireWorking
  split <;> exact hs

theorem preserves_awaitReady (timeout : Duration) : Preserves P (awaitReady timeout) := by
  apply Preserves.of_satisfies
  intro s hs
  apply (satisfies_awaitReady timeout).imp
  · intro _ t hsame
    exact hsame ▸ hs
  · intro why t hpost
    exact hpost.2 ▸ hs

/-- What is kept at the gate is kept by every operation that only reads. -/
theorem readsKeep (hconnection : Preserves P connection) (hclose : Preserves P close) :
    Store.ReadsKeep P where
  queryByRange index low high := by
    apply preserves_connected hconnection
    refine (preserves_requireWorking _).bind fun _ => ?_
    dsimp only
    split
    · -- There is no other index than the one over ids.
      exact fun _ hs => hs
    · exact preserves_state.bind fun _ => preserves_pure _
  scanAll := preserves_connected hconnection <|
    (preserves_requireWorking _).bind fun _ => preserves_state.bind fun _ => preserves_pure _
  countAll := preserves_connected hconnection <|
    (preserves_requireWorking _).bind fun _ => preserves_state.bind fun _ => preserves_pure _
  counter := by
    apply preserves_connected hconnection
    refine preserves_state.bind fun s => ?_
    cases s.counterRecord with
    | some r => exact preserves_orFail _
    | none => exact preserves_fail _
  awaitReady := preserves_awaitReady
  close := hclose

/-- What is kept at the gate and is no matter of the data is kept by every operation. -/
theorem callsKeep (hconnection : Preserves P connection) (hclose : Preserves P close)
    (hdata : ∀ s records counterRecord, P s → P { s with records, counterRecord }) :
    Store.CallsKeep P where
  toReadsKeep := readsKeep hconnection hclose
  put key r := preserves_connected hconnection fun s hs => hdata s _ s.counterRecord hs
  delete key := by
    apply preserves_connected hconnection
    intro s hs
    cases hcontains : s.records.contains key with
    | true =>
      simp only [hcontains, if_true]
      exact hdata s _ s.counterRecord hs
    | false =>
      simp only [hcontains, Bool.false_eq_true, if_false]
      exact hs
  increment amount := by
    apply preserves_connected hconnection
    refine Preserves.bind (fun s hs => hdata s s.records _ hs) fun r => ?_
    refine (preserves_orFail _).bind fun current => (preserves_orFault _).bind fun next => ?_
    exact Preserves.bind (fun s hs => hdata s s.records _ hs) fun _ => preserves_pure _

theorem preserves_connection : Preserves inner.Passed connection := by
  apply Preserves.of_satisfies
  intro s hs
  apply (satisfies_connection hs.idle).imp
  · intro conn t hpost
    exact hs.trans hpost.2
  · intro why t hpost
    exact hs.trans hpost.2

theorem preserves_close : Preserves inner.Passed close := by
  apply Preserves.of_satisfies
  intro s hs
  exact (satisfies_close hs.idle).imp (fun _ _ ht => hs.trans ht) fun _ _ h => h.elim

/-- Reads change at most what the gate holds. -/
theorem readsKeep_passed : Store.ReadsKeep inner.Passed :=
  readsKeep preserves_connection preserves_close

end MemoryStore

/-! ## Calls on an observed store -/

namespace ObservedStore

variable {σ : Type} {P : σ → Prop} {α : Type}

/-- A call keeps what the operation inside keeps, and what stays when the call has had its turn. -/
theorem preserves_observe_turn
    {N : List (StoreMethod × Option Mishap) → (Nat → List Record → List Record) → Prop}
    (call : StoreCall) {a : Action σ α} (ha : Preserves P a)
    (hturn : ∀ mishaps arrange,
      N mishaps arrange → N (mishaps.eraseP fun m => m.1 = call.method) arrange) :
    Preserves (fun s : ObservedStore σ => P s.inner ∧ N s.mishaps s.arrange) (observe call a) := by
  intro s hs
  unfold observe
  split
  · -- A mishap takes the place of the operation.
    exact ⟨hs.1, hturn _ _ hs.2⟩
  · exact ⟨ha _ hs.1, hturn _ _ hs.2⟩

theorem preserves_observe (call : StoreCall) {a : Action σ α} (ha : Preserves P a) :
    Preserves (P ·.inner) (observe call a) := by
  simpa only [and_true] using
    preserves_observe_turn (N := fun _ _ => True) call ha fun _ _ _ => trivial

theorem preserves_inside {a : Action σ α} (ha : Preserves P a) :
    Preserves (P ·.inner) (inside a) :=
  fun s hs => ha s.inner hs

theorem preserves_arranged {Q : ObservedStore σ → Prop}
    {a : Action (ObservedStore σ) (List Record)} (ha : Preserves Q a) : Preserves Q (arranged a) :=
  ha.bind fun _ => preserves_state.bind fun _ => preserves_pure _

/-- What the reads of the store inside keep, and what stays when a read has had its turn, the
observed reads keep. -/
theorem readsKeep_of_mishaps [Store σ]
    {N : List (StoreMethod × Option Mishap) → (Nat → List Record → List Record) → Prop}
    (h : Store.ReadsKeep P)
    (hmishaps : ∀ mishaps arrange method, StoreMethod.writes method = false →
      N mishaps arrange → N (mishaps.eraseP fun m => m.1 = method) arrange) :
    Store.ReadsKeep fun s : ObservedStore σ => P s.inner ∧ N s.mishaps s.arrange := by
  have hobserve : ∀ {α : Type} {call : StoreCall} {a : Action σ α}, call.method.writes = false →
      Preserves P a → Preserves (fun s : ObservedStore σ => P s.inner ∧ N s.mishaps s.arrange)
        (observe call a) :=
    fun hreads ha => preserves_observe_turn _ ha fun mishaps arrange =>
      hmishaps mishaps arrange _ hreads
  exact
    { queryByRange := fun index low high =>
        preserves_arranged (hobserve rfl (h.queryByRange index low high))
      scanAll := preserves_arranged (hobserve rfl h.scanAll)
      countAll := hobserve rfl h.countAll
      counter := hobserve rfl h.counter
      awaitReady := fun timeout s hs => ⟨h.awaitReady timeout _ hs.1, hs.2⟩
      close := fun s hs => ⟨h.close _ hs.1, hs.2⟩ }

/-- What the reads of the store inside keep, the observed reads keep. -/
theorem readsKeep [Store σ] (h : Store.ReadsKeep P) :
    Store.ReadsKeep fun s : ObservedStore σ => P s.inner := by
  simpa only [and_true] using
    readsKeep_of_mishaps (N := fun _ _ => True) h fun _ _ _ _ _ => trivial

/-- What the operations of the store inside keep, the calls keep. -/
theorem callsKeep [Store σ] (h : Store.CallsKeep P) :
    Store.CallsKeep fun s : ObservedStore σ => P s.inner where
  toReadsKeep := readsKeep h.toReadsKeep
  put key r := preserves_observe _ (h.put key r)
  delete key := preserves_observe _ (h.delete key)
  increment amount := preserves_observe _ (h.increment amount)

section Mishaps

variable {N : List (StoreMethod × Option Mishap) → Prop}
  (h : ∀ mishaps method, N mishaps → N (mishaps.eraseP fun m => m.1 = method))
include h

/-- A call takes its turn, whatever becomes of it. -/
theorem preserves_mishaps_observe (call : StoreCall) (a : Action MemoryStore α) :
    Preserves (fun s : ObservedStore MemoryStore => N s.mishaps) (observe call a) := by
  simpa only [true_and] using
    preserves_observe_turn (P := fun _ => True) (N := fun mishaps _ => N mishaps) call
      (fun _ _ => trivial) fun mishaps _ => h mishaps _

/-- What stays when a call has had its turn, every call keeps. -/
theorem callsKeep_mishaps : Store.CallsKeep fun s : ObservedStore MemoryStore => N s.mishaps where
  queryByRange _ _ _ := preserves_arranged (preserves_mishaps_observe h _ _)
  scanAll := preserves_arranged (preserves_mishaps_observe h _ _)
  countAll := preserves_mishaps_observe h _ _
  counter := preserves_mishaps_observe h _ _
  awaitReady _ _ hs := hs
  close _ hs := hs
  put _ _ := preserves_mishaps_observe h _ _
  delete _ := preserves_mishaps_observe h _ _
  increment _ := preserves_mishaps_observe h _ _

end Mishaps

/-- No call settles what becomes of later ones. -/
theorem callsKeep_spared :
    Store.CallsKeep fun s : ObservedStore MemoryStore => s.mishaps = [] := by
  apply callsKeep_mishaps (N := (· = []))
  rintro _ method rfl
  rfl

end ObservedStore

/-! ## Writes in any state -/

namespace Gate

variable {κ : Type} {live : κ → Bool} {dialled : Except BoardError κ}

/-- Arriving ends with an answer, whoever holds the turn. -/
theorem answers_arrive (g : Gate κ) :
    (arrive live g).Satisfies (fun _ _ => True) fun _ _ => False := by
  have hturn : (takeTurn g).Satisfies (fun _ _ => True) fun _ _ => False := by
    unfold takeTurn
    split <;> trivial
  unfold arrive
  split
  · exact hturn
  · split
    · trivial
    · -- The report of the dead connection changes no answer.
      exact hturn

/-- Who is not let through the gate is told why. -/
theorem stops_check (g : Gate κ) :
    (check live dialled g).Satisfies (fun _ _ => True)
      fun why _ => ∃ cause, why = .error cause := by
  unfold check
  rw [Action.satisfies_bind]
  apply (answers_arrive g).imp
  · intro arrival g' _
    cases arrival with
    | served conn => trivial
    | busy => exact ⟨.alreadyConnecting, rfl⟩
    | attempting =>
      cases dialled with
      | ok conn => trivial
      | error cause => exact ⟨cause, rfl⟩
  · exact fun _ _ => False.elim

end Gate

namespace MemoryStore

variable {s t : MemoryStore} {α : Type}

/-- `t` has the records and the counter of `s`. -/
structure SameData (s t : MemoryStore) : Prop where
  records : t.records = s.records
  counter : t.counterRecord = s.counterRecord

theorem SameData.refl (s : MemoryStore) : SameData s s := ⟨rfl, rfl⟩

/-- Reads change neither records nor counter, also while an attempt to connect is in flight. -/
theorem readsKeep_sameData : Store.ReadsKeep s.SameData :=
  readsKeep (fun _ ht => ⟨ht.records, ht.counter⟩) fun _ ht => ⟨ht.records, ht.counter⟩

/-- The gate is the only part of the store that a check of it writes back. -/
theorem satisfies_connection_any :
    (connection s).Satisfies (fun _ t => SameData s t)
      fun why t => (∃ cause, why = .error cause) ∧ SameData s t := by
  unfold connection atGate
  rw [Action.satisfies_on]
  apply (Gate.stops_check s.gate).imp
  · exact fun _ _ _ => ⟨rfl, rfl⟩
  · exact fun _ _ hcause => ⟨hcause, rfl, rfl⟩

/-- An operation behind the gate takes place on the same data, or fails for want of a connection. -/
theorem satisfies_connected_any {a : Action MemoryStore α} {Q : α → MemoryStore → Prop}
    {E : Stop → MemoryStore → Prop} (hpassed : ∀ t, SameData s t → (a t).Satisfies Q E)
    (hrefused : ∀ cause t, SameData s t → E (.error cause) t) : (connected a s).Satisfies Q E := by
  unfold connected
  rw [Action.satisfies_bind]
  apply satisfies_connection_any.imp
  · exact fun _ t ht => hpassed t ht
  · rintro _ t ⟨⟨cause, rfl⟩, ht⟩
    exact hrefused cause t ht

theorem satisfies_put_any (key : Int64) (r : Record) :
    (put key r s).Satisfies (fun _ _ => True)
      fun why t => (∃ cause, why = .error cause) ∧ SameData s t :=
  satisfies_connected_any (fun _ _ => trivial) fun cause _ ht => ⟨⟨cause, rfl⟩, ht⟩

theorem satisfies_delete_any (key : Int64) :
    (delete key s).Satisfies (fun _ _ => True) fun _ t => SameData s t := by
  refine satisfies_connected_any ?_ fun _ _ ht => ht
  intro t _
  by_cases hcontains : t.records.contains key = true
  · rw [if_pos hcontains]
    trivial
  · rw [if_neg hcontains]
    trivial

/-- `t` is what an increment of `s` by `amount` leaves that answers `id`. -/
structure Advanced (s : MemoryStore) (amount id : Int64) (t : MemoryStore) : Prop where
  records : t.records = s.records
  start : ∃ current, incrementStart amount (s.counterRecord.getD .empty) = .ok current ∧
    id.toInt = current.toInt + amount.toInt
  counter : t.counterRecord = some ((s.counterRecord.getD .empty).insert Bin.count (.int id))

theorem Advanced.of_sameData {amount id : Int64} {u : MemoryStore} (h : Advanced s amount id t)
    (hsame : SameData t u) : Advanced s amount id u :=
  ⟨hsame.records.trans h.records, h.start, hsame.counter.trans h.counter⟩

/-- An increment moves the counter by its amount. -/
theorem Advanced.counts {amount id : Int64} (h : Advanced s amount id t) {n : Int}
    (hcounts : s.Counts n) : t.Counts (n + amount.toInt) := by
  obtain ⟨current, hstart, hid⟩ := h.start
  obtain ⟨w, hstart', hw⟩ := hcounts.incrementStart amount
  obtain rfl := Except.ok.inj (hstart.symm.trans hstart')
  refine .inr ⟨_, id, h.counter, ?_, by omega⟩
  rw [SortedMap.find?_insert, if_pos rfl]

/-- A counter record that is only made now has a value to start from. -/
private theorem some_getD_of_noStart {record : Option Record} {amount : Int64} {cause : BoardError}
    (h : incrementStart amount (record.getD .empty) = .error cause) :
    some (record.getD .empty) = record := by
  cases record with
  | none => exact nomatch h
  | some r => rfl

/-- A counter record that is only made now starts from zero, so the sum is in range. -/
private theorem some_getD_of_noSum {record : Option Record} {amount current : Int64} {fault : Fault}
    (hstart : incrementStart amount (record.getD .empty) = .ok current)
    (hsum : Word.add current amount = .error fault) : some (record.getD .empty) = record := by
  cases record with
  | none =>
    obtain rfl : 0 = current := Except.ok.inj hstart
    have hzero : (0 : Int64).toInt = 0 := rfl
    have hlow := Word.least_le amount
    have hhigh := Word.le_greatest amount
    obtain ⟨next, hnext, -⟩ := Word.add_of_mem (a := 0) (b := amount) (by omega) (by omega)
    rw [hnext] at hsum
    exact nomatch hsum
  | some r => rfl

/-- The counter moves by the amount or, if the increment stops, not at all. -/
theorem satisfies_increment_any (amount : Int64) :
    (increment amount s).Satisfies (fun id t => Advanced s amount id t)
      fun _ t => SameData s t := by
  refine satisfies_connected_any ?_ fun _ _ ht => ht
  intro t ht
  rw [Action.satisfies_bind, satisfies_openCounter, Action.satisfies_bind, ht.counter]
  cases hstart : incrementStart amount (s.counterRecord.getD .empty) with
  | error cause =>
    rw [Action.satisfies_orFail_error]
    exact ⟨ht.records, some_getD_of_noStart hstart⟩
  | ok current =>
    rw [Action.satisfies_orFail_ok, Action.satisfies_bind]
    cases hsum : Word.add current amount with
    | error fault =>
      rw [Action.satisfies_orFault_error]
      exact ⟨ht.records, some_getD_of_noSum hstart hsum⟩
    | ok next =>
      rw [Action.satisfies_orFault_ok]
      exact ⟨ht.records, ⟨current, hstart, Word.toInt_of_add hsum⟩, rfl⟩

end MemoryStore

namespace ObservedStore

variable {s : ObservedStore MemoryStore} {α : Type}

/-- A call that goes wrong does not reach the store inside. -/
theorem satisfies_observe_any {call : StoreCall} {a : Action MemoryStore α}
    {Q : α → MemoryStore → Prop} {E : Stop → MemoryStore → Prop}
    (ha : (a s.inner).Satisfies Q E) (hmishap : ∀ cause, E (.error cause) s.inner) :
    (observe call a s).Satisfies (fun x t => Q x t.inner) fun why t => E why t.inner := by
  unfold observe
  split
  · exact hmishap _
  · exact ha

theorem satisfies_put_any (key : Int64) (r : Record) :
    (Store.put key r s).Satisfies (fun _ _ => True)
      fun why t => (∃ cause, why = .error cause) ∧ s.inner.SameData t.inner :=
  satisfies_observe_any (MemoryStore.satisfies_put_any key r) fun cause => ⟨⟨cause, rfl⟩, .refl _⟩

theorem satisfies_delete_any (key : Int64) :
    (Store.delete key s).Satisfies (fun _ _ => True) fun _ t => s.inner.SameData t.inner :=
  satisfies_observe_any (MemoryStore.satisfies_delete_any key) fun _ => .refl _

theorem satisfies_increment_any (amount : Int64) :
    (Store.increment amount s).Satisfies (fun id t => s.inner.Advanced amount id t.inner)
      fun _ t => s.inner.SameData t.inner :=
  satisfies_observe_any (MemoryStore.satisfies_increment_any amount) fun _ => .refl _

end ObservedStore

end Guestbook
