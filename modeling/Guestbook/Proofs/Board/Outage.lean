import Guestbook.Proofs.Board.Cached
import Guestbook.Proofs.Board.Ids
import Guestbook.Proofs.Board.Twins

/-!
# Outages

While no attempt to connect is in flight, an operation passes the gate exactly when the store can be
reached at that moment, whatever connections came and went before. So an outage stops every request
that needs the store, changes no data, and leaves nothing behind: a run goes on as if the posts and
deletes that it turned away had never been made.

## Main definitions
- `MemoryStore.PassesWhenReachable`: what decides whether an operation passes the gate
- `Board.Outage`: what requests do while the store cannot be reached
- `BoardStep.turnedAway`, `Ledger.withoutTurnedAway`: the posts and deletes of an outage, and the
  rest of a run

## Main statements
- `Board.stops_serve`: a request that needs the store fails for want of a connection
- `Ledger.similar_play`: erasing what an outage turned away
- `Ledger.survivesOutages_of_run`: every run
-/

namespace Guestbook

open Outcome (Satisfies)
open Guestbook.Action (InStep Preserves)

/-- Why an operation stops while the store cannot be reached. -/
def Stop.unreachable : Stop := .error (.connectFailed "store unreachable")

/-! ## Stores -/

namespace MemoryStore

variable {s : MemoryStore} {α : Type}

/-- An operation passes the gate exactly when the store can be reached. Then it takes place as it
would without a gate; otherwise it fails and leaves no trace. -/
structure PassesWhenReachable (s : MemoryStore) : Prop where
  connection_iff : (∃ conn, (connection s).answer = .ok conn) ↔ s.reachable = true
  takesPlace : s.reachable = true → ∀ {α : Type} (a : Action MemoryStore α),
    ∃ gate : Gate MemoryConnection, gate.connecting = false ∧
      (connected a s).answer = (a { s with gate }).answer ∧
        (connected a s).state = (a { s with gate }).state
  fails : s.reachable = false → ∀ {α : Type} (a : Action MemoryStore α),
    (connected a s).answer = .error .unreachable ∧ (connected a s).state = s

theorem passesWhenReachable (hidle : s.gate.connecting = false) : s.PassesWhenReachable where
  connection_iff := by
    have hconnection := satisfies_connection hidle
    constructor
    · rintro ⟨conn, hanswer⟩
      exact (hconnection.of_ok hanswer).1
    · -- The one reason not to pass is a store that cannot be reached.
      intro hreachable
      obtain ⟨conn, hanswer, -⟩ := hconnection.answers fun why t h =>
        Bool.false_ne_true (h.1.1.symm.trans hreachable)
      exact ⟨conn, hanswer⟩
  takesPlace hreachable _ a := connected_of_reachable a hidle hreachable
  fails hunreachable _ a := connected_of_unreachable a hidle hunreachable

/-- Only a switch changes whether the store can be reached. -/
theorem callsKeep_reachable (on : Bool) : Store.CallsKeep fun s : MemoryStore => s.reachable = on :=
  callsKeep (fun _ hs => hs) (fun _ hs => hs) fun _ _ _ hs => hs

/-- The store cannot be reached and has the data of `s`. -/
structure Stranded (s t : MemoryStore) : Prop where
  data : s.SameData t
  unreachable : t.reachable = false
  idle : t.gate.connecting = false

/-- An operation that cannot take place changes nothing. -/
theorem Stranded.preserves_connected (a : Action MemoryStore α) :
    Preserves (Stranded s) (connected a) := by
  intro t h
  rw [(connected_of_unreachable a h.idle h.unreachable).2]
  exact h

theorem callsKeep_stranded : Store.CallsKeep (Stranded s) where
  queryByRange _ _ _ := Stranded.preserves_connected _
  scanAll := Stranded.preserves_connected _
  countAll := Stranded.preserves_connected _
  counter := Stranded.preserves_connected _
  awaitReady := preserves_awaitReady
  close _ h := ⟨⟨h.data.records, h.data.counter⟩, h.unreachable, h.idle⟩
  put _ _ := Stranded.preserves_connected _
  delete _ := Stranded.preserves_connected _
  increment _ := Stranded.preserves_connected _

end MemoryStore

namespace ObservedStore

variable {s : ObservedStore MemoryStore} {α : Type}

/-- The store cannot be reached, and no mishap takes the place of the next call of an operation. -/
structure CutOff (s : ObservedStore MemoryStore) (method : StoreMethod) : Prop where
  idle : s.inner.gate.connecting = false
  unreachable : s.inner.reachable = false
  spared : s.mishapFor? method = none

/-- Whether an operation meets an outage, and nothing is settled about its calls: that a call was
made does not bring the turn of a later one nearer. -/
def cutsOff (s : ObservedStore MemoryStore) (method : StoreMethod) : Bool :=
  !s.inner.reachable && s.mishaps.all fun m => m.1 ≠ method

theorem withoutMishap_of_cutsOff {method : StoreMethod} (h : s.cutsOff method = true) :
    s.withoutMishap method = s := by
  have herase : s.mishaps.eraseP (fun m => m.1 = method) = s.mishaps := by
    apply List.eraseP_of_forall_not
    simpa using (Bool.and_eq_true_iff.mp h).2
  rw [withoutMishap, herase]

theorem CutOff.of_cutsOff {method : StoreMethod} (hidle : s.inner.gate.connecting = false)
    (h : s.cutsOff method = true) : s.CutOff method := by
  refine ⟨hidle, ?_, ?_⟩
  · simpa using (Bool.and_eq_true_iff.mp h).1
  · cases hmishap : s.mishapFor? method with
    | none => rfl
    | some m =>
      have hall := List.all_eq_true.mp (Bool.and_eq_true_iff.mp h).2 _
        (mem_mishaps_of_mishapFor? hmishap)
      exact absurd rfl (of_decide_eq_true hall)

/-- An action stops for want of a connection and leaves no trace but that it made calls, and that a
call of an operation has had its turn. -/
def Strands (s : ObservedStore MemoryStore) (method : StoreMethod)
    (a : Action (ObservedStore MemoryStore) α) : Prop :=
  (a s).Satisfies (fun _ _ => False)
    fun why t => why = .unreachable ∧ ∃ calls, t = { s.withoutMishap method with calls }

theorem strands_observe {call : StoreCall} (h : s.CutOff call.method) (a : Action MemoryStore α) :
    Strands s call.method (observe call (MemoryStore.connected a)) := by
  obtain ⟨hanswer, hstate⟩ := MemoryStore.connected_of_unreachable a h.idle h.unreachable
  rw [Strands, observe_of_spared h.spared, inside, Action.satisfies_on, inner_noted,
    Outcome.satisfies_iff_of_error hanswer, hstate]
  exact ⟨rfl, _, rfl⟩

theorem strands_arranged {method : StoreMethod}
    {a : Action (ObservedStore MemoryStore) (List Record)} (h : Strands s method a) :
    Strands s method (arranged a) := by
  rw [Strands, arranged, Action.satisfies_bind]
  exact Satisfies.imp h (fun _ _ => False.elim) fun _ _ => id

end ObservedStore

/-! ## Requests during an outage -/

namespace BoardRequest

/-- The operation of the store that a request calls first, if it calls one that takes place behind
the gate. -/
def firstCall? : BoardRequest → Option StoreMethod
  | post _ => some .increment
  | delete _ => some .delete
  | all _ | allCached _ => some .scanAll
  | range .. => some .queryByRange
  | page .. | count => some .countAll
  | awaitReady _ | isConnected | close => none

/-- A request is not settled before its first call: the page asked for is valid, and the full list
is not cached. -/
def NeedsStore {σ γ : Type} [Cache γ] (b : Board σ γ) : BoardRequest → Prop
  | allCached _ => (Cache.get Page.allMessagesKey b.cache).answer = .ok none
  | page number size => 1 ≤ number ∧ 1 ≤ size
  | _ => True

end BoardRequest

namespace Board

variable {γ : Type} {b : Board (ObservedStore MemoryStore) γ} {α β : Type}

/-- An action stops for want of a connection and leaves no trace but that it made calls, that a call
of an operation has had its turn, and what it did to the cache before. -/
def Strands (b : Board (ObservedStore MemoryStore) γ) (method : StoreMethod)
    (a : Action (Board (ObservedStore MemoryStore) γ) α) : Prop :=
  (a b).Satisfies (fun _ _ => False) fun why c => why = .unreachable ∧
    ∃ calls cache, c = { b with store := { b.store.withoutMishap method with calls }, cache }

theorem strands_atStore {method : StoreMethod} {a : Action (ObservedStore MemoryStore) α}
    (ha : ObservedStore.Strands b.store method a) : Strands b method (atStore a) := by
  rw [Strands, satisfies_atStore]
  refine Satisfies.imp ha (fun _ _ => id) ?_
  rintro _ store ⟨rfl, calls, rfl⟩
  exact ⟨rfl, calls, b.cache, rfl⟩

/-- What follows a stop does not matter. -/
theorem Strands.bind {method : StoreMethod} {a : Action (Board (ObservedStore MemoryStore) γ) α}
    (ha : Strands b method a) (next : α → Action (Board (ObservedStore MemoryStore) γ) β) :
    Strands b method (a >>= next) := by
  rw [Strands, Action.satisfies_bind]
  exact Satisfies.imp ha (fun _ _ => False.elim) fun _ _ => id

/-- An action stops for want of a connection and leaves no trace but that it made calls, and what it
did to the cache before. -/
def TurnsAway (b : Board (ObservedStore MemoryStore) γ)
    (a : Action (Board (ObservedStore MemoryStore) γ) α) : Prop :=
  (a b).Satisfies (fun _ _ => False) fun why c => why = .unreachable ∧
    ∃ calls cache, c = { b with store := { b.store with calls }, cache }

/-- Where nothing is settled about the calls of an operation, none of them takes a turn. -/
theorem Strands.turnsAway {method : StoreMethod}
    {a : Action (Board (ObservedStore MemoryStore) γ) α} (ha : Strands b method a)
    (h : b.store.cutsOff method = true) : TurnsAway b a := by
  rw [Strands, ObservedStore.withoutMishap_of_cutsOff h] at ha
  exact ha

theorem strands_all (h : b.store.CutOff .scanAll) (byTimestamp : Bool) :
    Strands b .scanAll (all byTimestamp) :=
  (strands_atStore (ObservedStore.strands_arranged (ObservedStore.strands_observe h _))).bind _

theorem strands_range (h : b.store.CutOff .queryByRange) (low high : Int64) :
    Strands b .queryByRange (range low high) := by
  rw [Strands, range, Action.satisfies_bind, Action.satisfies_state]
  exact (strands_atStore
    (ObservedStore.strands_arranged (ObservedStore.strands_observe h _))).bind _

theorem strands_count (h : b.store.CutOff .countAll) : Strands b .countAll count :=
  strands_atStore (ObservedStore.strands_observe h _)

variable [Cache γ]

theorem strands_post (h : b.store.CutOff .increment) (m : Message) :
    Strands b .increment (post m) :=
  (strands_atStore (ObservedStore.strands_observe h _)).bind _

/-- The cache is cleared before the store is called, and a clear cannot fail. -/
theorem strands_delete [LawfulCache γ] (h : b.store.CutOff .delete) (id : Int64) :
    Strands b .delete (delete id) := by
  rw [Strands, delete, Action.satisfies_bind, satisfies_atCache]
  refine (LawfulCache.satisfies_clear b.cache).imp ?_ fun _ _ => False.elim
  intro _ cache _
  exact (strands_atStore (ObservedStore.strands_observe h _)).bind _

theorem strands_allCached (h : b.store.CutOff .scanAll) (byTimestamp : Bool)
    (hmiss : (Cache.get Page.allMessagesKey b.cache).answer = .ok none) :
    Strands b .scanAll (allCached byTimestamp) := by
  have hcached : (cached Page.allMessagesKey b).Satisfies
      (fun found c => found = none ∧ ∃ cache, c = { b with cache }) fun _ _ => False := by
    rw [cached, Action.satisfies_bind, satisfies_atCache, Outcome.satisfies_iff_of_ok hmiss]
    exact ⟨rfl, _, rfl⟩
  rw [Strands, allCached_eq]
  apply satisfies_readThrough (hcached.imp (fun _ _ => id) fun _ _ => False.elim)
  · rintro ms c ⟨hsome, -⟩
    exact nomatch hsome
  · rintro c ⟨-, cache, rfl⟩
    -- The look-up left the store as it was, and a miss goes on to the scan.
    have hall : Strands { b with cache } .scanAll (all byTimestamp) :=
      strands_all (b := { b with cache }) h byTimestamp
    exact Satisfies.imp hall (fun _ _ => False.elim) fun _ _ => id

theorem strands_page (h : b.store.CutOff .countAll) {number size : Int64} (hnumber : 1 ≤ number)
    (hsize : 1 ≤ size) : Strands b .countAll (page number size) := by
  rw [page_of_valid (Page.valid_iff.mpr ⟨hnumber, hsize⟩)]
  exact (strands_count h).bind _

/-- A request that needs the store fails for want of a connection. -/
theorem strands_serve [LawfulCache γ] {r : BoardRequest} {method : StoreMethod}
    (hcall : r.firstCall? = some method) (h : b.store.CutOff method) (hneeds : r.NeedsStore b) :
    Strands b method r.serve := by
  cases r with
  | post m =>
    obtain rfl := Option.some.inj hcall
    exact (strands_post h m).bind _
  | delete id =>
    obtain rfl := Option.some.inj hcall
    exact (strands_delete h id).bind _
  | all byTimestamp =>
    obtain rfl := Option.some.inj hcall
    exact (strands_all h byTimestamp).bind _
  | allCached byTimestamp =>
    obtain rfl := Option.some.inj hcall
    exact (strands_allCached h byTimestamp hneeds).bind _
  | range low high =>
    obtain rfl := Option.some.inj hcall
    exact (strands_range h low high).bind _
  | page number size =>
    obtain rfl := Option.some.inj hcall
    exact (strands_page h hneeds.1 hneeds.2).bind _
  | count =>
    obtain rfl := Option.some.inj hcall
    exact (strands_count h).bind _
  | awaitReady timeout => exact nomatch hcall
  | isConnected => exact nomatch hcall
  | close => exact nomatch hcall

/-- What requests do while the store cannot be reached: those that need it fail for want of a
connection, and none changes records or counter. -/
structure Outage (b : Board (ObservedStore MemoryStore) γ) : Prop where
  answer : ∀ (r : BoardRequest) method, r.firstCall? = some method →
    b.store.mishapFor? method = none → r.NeedsStore b →
      (r.serve b).answer = .error .unreachable
  data : ∀ r : BoardRequest, b.store.inner.SameData (r.serve b).state.store.inner

theorem outage [LawfulCache γ] (hidle : b.store.inner.gate.connecting = false)
    (hunreachable : b.store.inner.reachable = false) : b.Outage where
  answer r method hcall hspared hneeds := by
    have hserve := strands_serve hcall ⟨hidle, hunreachable, hspared⟩ hneeds
    obtain ⟨why, hanswer, rfl, -⟩ := Satisfies.stops hserve fun _ _ => id
    exact hanswer
  data r :=
    (BoardRequest.preserves_serve_of_calls MemoryStore.callsKeep_stranded r b
      ⟨.refl b.store.inner, hunreachable, hidle⟩).data

end Board

/-! ## Steps -/

namespace BoardStep

variable {γ : Type}

/-- Whether the store can be reached after a step: only a switch changes it. -/
def reachableAfter (before : Bool) : BoardStep γ → Bool
  | setReachable on => on
  | _ => before

/-- Whether a step is a post or a delete that finds the store unreachable. -/
def turnedAway (b : Board (ObservedStore MemoryStore) γ) : BoardStep γ → Bool
  | request (.post _) => b.store.cutsOff .increment
  | request (.delete _) => b.store.cutsOff .delete
  | _ => false

variable [Cache γ] {b p : Board (ObservedStore MemoryStore) γ}

theorem reachable_perform (step : BoardStep γ) :
    (step.perform b).state.store.inner.reachable = step.reachableAfter b.store.inner.reachable := by
  cases step with
  | request r =>
    exact BoardRequest.preserves_serve_of_calls (MemoryStore.callsKeep_reachable _) r b rfl
  | connectFirst =>
    rw [state_perform_connectFirst]
    rfl
  | _ => exact rfl

/-! ### Steps on twins -/

/-- The mishaps of reads may differ, because a cache spares a board reads that another makes. -/
abbrev Twin (b p : Board (ObservedStore MemoryStore) γ) : Prop :=
  Board.Twin StoreMethod.writes b p

/-- A step leaves twins and issues the same ids on both. -/
theorem twin_perform [LawfulCache γ] (h : Twin b p) (step : BoardStep γ) :
    Twin (step.perform b).state (step.perform p).state ∧
      step.newIds (step.perform p).answer = step.newIds (step.perform b).answer ∧
        step.increments p = step.increments b := by
  -- Whether the next increment gives an id is a matter of the data and the switches.
  have hissues : p.issues = b.issues := by
    have hincrement : InStep (ObservedStore.Twin StoreMethod.writes) (Store.increment 1)
        (Store.increment 1) := ObservedStore.inStep_increment rfl 1
    rw [Board.issues, Board.issues, (hincrement b.store p.store h.store).1]
  cases step with
  | request r =>
    have hspares : b.store.SparesReads StoreMethod.writes := fun m hm => (List.mem_filter.mp hm).2
    obtain ⟨hstate, hanswer⟩ := BoardRequest.twin_serve (fun _ hm => hm) hspares h r
    refine ⟨hstate, ?_, ?_⟩
    · cases r with
      | post m => exact congrArg (newIds (γ := γ) (request (.post m))) (hanswer rfl).symm
      | _ => rfl
    · cases r with
      | post m => exact hissues
      | _ => rfl
  | connectFirst =>
    exact ⟨(Board.inStep_outside MemoryStore.inStep_connectFirst .done b p h).2, rfl, rfl⟩
  | setReachable on =>
    exact ⟨(Board.inStep_outside (MemoryStore.inStep_setReachable on) .done b p h).2, rfl, rfl⟩
  | setFailing on =>
    exact ⟨(Board.inStep_outside (MemoryStore.inStep_setFailing on) .done b p h).2, rfl, rfl⟩
  | mishap method m passed =>
    have hmishap := ObservedStore.inStep_addMishap method m passed b.store p.store h.store
    exact ⟨⟨hmishap.2, h.index⟩, rfl, rfl⟩
  | tamper f => exact ⟨⟨h.store, h.index⟩, rfl, rfl⟩

/-- A post or a delete that an outage turns away stops for want of a connection. -/
theorem turnsAway_turnedAway [LawfulCache γ] (hidle : b.store.inner.gate.connecting = false)
    {step : BoardStep γ} (h : step.turnedAway b = true) : Board.TurnsAway b step.perform := by
  cases step with
  | request r =>
    cases r with
    | post m => exact ((Board.strands_post (.of_cutsOff hidle h) m).bind _).turnsAway h
    | delete id => exact ((Board.strands_delete (.of_cutsOff hidle h) id).bind _).turnsAway h
    | _ => exact nomatch h
  | _ => exact nomatch h

omit [Cache γ] in
/-- It takes no id from the counter. -/
theorem increments_turnedAway (hidle : b.store.inner.gate.connecting = false)
    {step : BoardStep γ} (h : step.turnedAway b = true) : step.increments b = 0 := by
  unfold increments
  split
  · have hcutOff : b.store.CutOff (StoreCall.increment 1).method := .of_cutsOff hidle h
    have hincrement : ObservedStore.Strands b.store .increment (Store.increment 1) :=
      ObservedStore.strands_observe hcutOff _
    obtain ⟨why, hanswer, -⟩ := Satisfies.stops hincrement fun _ _ => id
    rw [Board.issues, hanswer]
  · rfl

omit [Cache γ] in
theorem newIds_error (step : BoardStep γ) (why : Stop) : step.newIds (.error why) = [] := by
  unfold newIds
  split
  · next h => exact nomatch h
  · rfl

end BoardStep

/-! ## Runs -/

namespace Ledger

variable {γ : Type} [Cache γ]

/-- The steps of a run without the posts and the deletes that an outage turned away. -/
def withoutTurnedAway (l : Ledger γ) : List (BoardStep γ) → List (BoardStep γ)
  | [] => []
  | step :: steps =>
    if step.turnedAway l.board then withoutTurnedAway (l.next step) steps
    else step :: withoutTurnedAway (l.next step) steps

/-- Two runs have come to twins and have issued the same ids. -/
structure Similar (l e : Ledger γ) : Prop where
  board : BoardStep.Twin l.board e.board
  ids : e.ids = l.ids
  increments : e.increments = l.increments

variable [LawfulCache γ] {l e : Ledger γ}

theorem Similar.next (h : Similar l e) (step : BoardStep γ) :
    Similar (l.next step) (e.next step) := by
  obtain ⟨hboard, hids, hincrements⟩ := BoardStep.twin_perform h.board step
  refine ⟨hboard, ?_, ?_⟩
  · show e.ids ++ _ = l.ids ++ _
    rw [h.ids, hids]
  · show e.increments + _ = l.increments + _
    rw [h.increments, hincrements]

/-- Of two runs one may have a post or a delete turned away. -/
theorem Similar.turnedAway (h : Similar l e) {step : BoardStep γ}
    (haway : step.turnedAway l.board = true) : Similar (l.next step) e := by
  obtain ⟨hstore, hindex⟩ := h.board
  obtain ⟨why, hanswer, -, calls, cache, hstate⟩ :=
    Satisfies.stops (BoardStep.turnsAway_turnedAway hstore.inner.idle haway) fun _ _ => id
  refine ⟨?_, ?_, ?_⟩
  · -- Of the step only calls and what it did to the cache are left, which twins need not share.
    show BoardStep.Twin (step.perform l.board).state e.board
    rw [hstate]
    exact ⟨⟨hstore.inner, hstore.mishaps, hstore.inOrder, hstore.inOrder'⟩, hindex⟩
  · show e.ids = l.ids ++ step.newIds (step.perform l.board).answer
    rw [hanswer, BoardStep.newIds_error, List.append_nil, h.ids]
  · show e.increments = l.increments + step.increments l.board
    rw [BoardStep.increments_turnedAway hstore.inner.idle haway, h.increments]
    rfl

/-- Erasing the posts and the deletes that an outage turned away changes no id issued and no
data. -/
theorem similar_play (h : Similar l e) (steps : List (BoardStep γ)) :
    Similar (l.play steps) (e.play (l.withoutTurnedAway steps)) := by
  -- The erased run makes the same steps but for those that were turned away.
  induction steps generalizing l e with
  | nil => exact h
  | cons step steps ih =>
    rw [withoutTurnedAway]
    split
    · next haway => exact ih (h.turnedAway haway)
    · exact ih (h.next step)

omit [LawfulCache γ] in
theorem reachable_play (l : Ledger γ) (steps : List (BoardStep γ)) :
    (l.play steps).board.store.inner.reachable
      = steps.foldl BoardStep.reachableAfter l.board.store.inner.reachable := by
  induction steps generalizing l with
  | nil => rfl
  | cons step steps ih =>
    have hstep : (l.next step).board.store.inner.reachable = _ := BoardStep.reachable_perform step
    rw [List.foldl_cons, ← hstep]
    exact ih (l.next step)

/-- After every run whose steps come one after the other, whether the store can be reached is a
matter of the last switch alone, and decides whether an operation passes the gate. While it cannot
be reached the requests that need it fail and change no data, and the posts and deletes that it
turned away might as well not have been made. -/
theorem survivesOutages_of_run (index : String) (reachable : Bool) (cache : γ)
    (steps : List (BoardStep γ)) :
    let new := opened index reachable cache
    let store := (new.play steps).board.store.inner
    let erased := new.play (new.withoutTurnedAway steps)
    store.reachable = steps.foldl BoardStep.reachableAfter reachable ∧
      store.PassesWhenReachable ∧
      (store.reachable = false → (new.play steps).board.Outage) ∧
      erased.ids = (new.play steps).ids ∧
      erased.board.store.inner.records = store.records ∧
      erased.board.store.inner.counterRecord = store.counterRecord := by
  intro new store erased
  have hnew : Similar new new := ⟨⟨.refl rfl fun _ _ => rfl, rfl⟩, rfl, rfl⟩
  have herased := similar_play hnew steps
  have hidle := herased.board.store.inner.idle
  exact ⟨reachable_play new steps, MemoryStore.passesWhenReachable hidle, Board.outage hidle,
    herased.ids, herased.board.store.inner.data.records, herased.board.store.inner.data.counter⟩

/-- Posts and deletes before, during and after an outage that begins while a connection is held,
goes on through a close and a new attempt, and is followed by another one. -/
def interruptedSteps : List (BoardStep MapCache) :=
  [.request (.post { author := "a", text := "1" }), .setReachable false,
    .request (.post { author := "b", text := "2" }), .request .close, .connectFirst,
    .request (.delete 1), .request (.page 1 1), .setReachable true, .mishap .put .notConnected 0,
    .request (.post { author := "c", text := "3" }), .request (.allCached false),
    .request (.post { author := "d", text := "4" }), .setReachable false, .request (.delete 3)]

/-- The run without the two deletes and the post that were turned away issues the same ids. -/
theorem survivesOutages_of_run_interrupted :
    ((opened Bin.id true ({} : MapCache)).withoutTurnedAway interruptedSteps).length = 11 ∧
      ((opened Bin.id true ({} : MapCache)).play interruptedSteps).board.store.inner.reachable
        = false ∧
      ((opened Bin.id true ({} : MapCache)).play interruptedSteps).board.Outage ∧
      ((opened Bin.id true ({} : MapCache)).play interruptedSteps).ids = [1, 3] ∧
      ((opened Bin.id true ({} : MapCache)).play
        ((opened Bin.id true ({} : MapCache)).withoutTurnedAway interruptedSteps)).ids
          = [1, 3] := by
  obtain ⟨-, -, houtage, hsame, -⟩ :=
    survivesOutages_of_run Bin.id true ({} : MapCache) interruptedSteps
  have hunreachable : ((opened Bin.id true ({} : MapCache)).play
      interruptedSteps).board.store.inner.reachable = false := by decide +kernel
  have hids : ((opened Bin.id true ({} : MapCache)).play interruptedSteps).ids = [1, 3] := by
    decide +kernel
  exact ⟨by decide +kernel, hunreachable, houtage hunreachable, hids, hsame.trans hids⟩

end Ledger

end Guestbook
