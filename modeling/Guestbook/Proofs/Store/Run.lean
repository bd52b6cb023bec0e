import Guestbook.Store.Request
import Guestbook.Proofs.Store.Frame

/-!
# Runs of a store in memory

A run starts from a new store and takes steps in any order: requests, waits for the first
connection, and the attempt to connect that is made in the background. A step that stops, for want
of a connection or out of range, is one like any other. Beside the store go the amounts that its
answers say were added to the counter.

## Main definitions
- `StoreStep`, `StoreStep.perform`: a step of a run
- `StoreHistory`: a store and the amounts added to its counter
- `StoreHistory.opened`, `StoreHistory.play`: a new store, and a run of steps
- `MemoryStore.Idles`: no attempt to connect is in flight, and what the counter record is

## Main statements
- `StoreStep.preserves_perform`: every step but an increment leaves the counter alone
- `StoreHistory.idle_play`: no step leaves an attempt to connect in flight
-/

namespace Guestbook

open Guestbook.Action (Preserves preserves_pure preserves_state preserves_orFail)

/-! ## Steps -/

/-- A step of a run. -/
inductive StoreStep where
  | request (r : StoreRequest)
  /-- A wait for the first connection. -/
  | awaitReady (timeout : Duration)
  /-- The attempt to connect that is made in the background. -/
  | connectFirst

namespace StoreStep

/-- Takes a step. -/
def perform : StoreStep → Action MemoryStore StoreReply
  | request r => r.serve
  | awaitReady timeout => do
    MemoryStore.awaitReady timeout
    return .done
  | connectFirst => do
    MemoryStore.connectFirst
    return .done

/-- What a step adds to the counter, if it is answered. -/
def amount? : StoreStep → Option Int64
  | request (.increment amount) => some amount
  | _ => none

/-- The amounts that a step with an answer added to the counter. -/
def added (step : StoreStep) : Except Stop StoreReply → List Int64
  | .ok _ => step.amount?.toList
  | .error _ => []

end StoreStep

/-- A store and the amounts of the increments that were answered, in the order of the increments. -/
structure StoreHistory where
  store : MemoryStore
  amounts : List Int64 := []

namespace StoreHistory

/-- A new store, which can be reached or not. -/
def opened (reachable : Bool) : StoreHistory := { store := { reachable } }

/-- One step of a run. -/
def next (h : StoreHistory) (step : StoreStep) : StoreHistory :=
  let o := step.perform h.store
  { store := o.state, amounts := h.amounts ++ step.added o.answer }

/-- A run of steps. -/
def play (h : StoreHistory) (steps : List StoreStep) : StoreHistory := steps.foldl next h

end StoreHistory

/-! ## What a step leaves alone -/

namespace MemoryStore

variable {s : MemoryStore} {record : Option Record}

/-- No attempt to connect is in flight, and the counter record is `record`. -/
structure Idles (record : Option Record) (s : MemoryStore) : Prop where
  idle : s.gate.connecting = false
  counter : s.counterRecord = record

theorem Idles.passed {t : MemoryStore} (h : Idles record s) (ht : s.Passed t) : Idles record t := by
  obtain ⟨gate, hidle, rfl⟩ := ht
  exact ⟨hidle, h.counter⟩

/-- The gate and the switches may change, as long as no attempt stays in flight. -/
theorem Idles.preserves_of_passed {α : Type} {a : Action MemoryStore α}
    (ha : ∀ s : MemoryStore, s.gate.connecting = false →
      (a s).Satisfies (fun _ t => Passed s t) fun _ t => Passed s t) :
    Preserves (Idles record) a := by
  apply Preserves.of_satisfies
  intro s h
  exact (ha s h.idle).imp (fun _ _ => h.passed) fun _ _ => h.passed

theorem Idles.preserves_connection : Preserves (Idles record) connection :=
  preserves_of_passed fun _ hidle =>
    (satisfies_connection hidle).imp (fun _ _ h => h.2) fun _ _ h => h.2

theorem Idles.preserves_close : Preserves (Idles record) close :=
  preserves_of_passed fun _ hidle =>
    (satisfies_close hidle).imp (fun _ _ h => h) fun _ _ => False.elim

theorem Idles.preserves_connectFirst : Preserves (Idles record) connectFirst :=
  preserves_of_passed fun _ hidle =>
    (satisfies_connectFirst hidle).imp (fun _ _ h => h) fun _ _ => False.elim

theorem Idles.readsKeep : Store.ReadsKeep (Idles record) :=
  MemoryStore.readsKeep Idles.preserves_connection Idles.preserves_close

theorem Idles.preserves_put (key : Int64) (r : Record) : Preserves (Idles record) (put key r) :=
  preserves_connected Idles.preserves_connection fun _ h => ⟨h.idle, h.counter⟩

theorem Idles.preserves_delete (key : Int64) : Preserves (Idles record) (delete key) := by
  apply preserves_connected Idles.preserves_connection
  intro s h
  dsimp only
  split
  · exact ⟨h.idle, h.counter⟩
  · exact h

end MemoryStore

namespace StoreStep

open MemoryStore (Idles)

variable {record : Option Record}

/-- A request other than an increment leaves the counter alone. -/
theorem preserves_serve {r : StoreRequest} (hr : (request r).amount? = none) :
    Preserves (Idles record) r.serve := by
  have hreads : Store.ReadsKeep (Idles record) := Idles.readsKeep
  cases r with
  | increment amount => exact nomatch hr
  | put key r => exact (Idles.preserves_put key r).bind fun _ => preserves_pure _
  | delete key => exact (Idles.preserves_delete key).bind fun _ => preserves_pure _
  | query index low high =>
    exact (hreads.queryByRange index low high).bind fun _ => preserves_pure _
  | scan => exact hreads.scanAll.bind fun _ => preserves_pure _
  | count => exact hreads.countAll.bind fun _ => preserves_pure _
  | counter => exact hreads.counter.bind fun _ => preserves_pure _
  | close => exact hreads.close.bind fun _ => preserves_pure _
  | check =>
    exact Idles.preserves_connection.bind fun _ => preserves_state.bind fun _ => preserves_pure _
  | dial =>
    exact preserves_state.bind fun s => (preserves_orFail _).bind fun _ => preserves_pure _
  -- Records planted past the gate and the switches are no matter of the gate or the counter.
  | insertRaw key r => exact fun s h => ⟨h.idle, h.counter⟩
  | setReachable on => exact fun s h => ⟨h.idle, h.counter⟩
  | setFailing on => exact fun s h => ⟨h.idle, h.counter⟩
  -- What is left only looks at the store.
  | size => exact fun s h => h
  | isEmpty => exact fun s h => h
  | gate => exact fun s h => h

/-- Every step but an increment leaves the counter alone. -/
theorem preserves_perform {step : StoreStep} (hstep : step.amount? = none) :
    Preserves (Idles record) step.perform := by
  cases step with
  | request r => exact preserves_serve hstep
  | awaitReady timeout => exact (Idles.readsKeep.awaitReady timeout).bind fun _ => preserves_pure _
  | connectFirst => exact Idles.preserves_connectFirst.bind fun _ => preserves_pure _

/-- A step with an amount is an increment by it. -/
theorem eq_increment {step : StoreStep} {amount : Int64} (h : step.amount? = some amount) :
    step = request (.increment amount) := by
  unfold amount? at h
  split at h
  · rw [Option.some.inj h]
  · exact nomatch h

/-- No step leaves an attempt to connect in flight. -/
theorem idle_perform (step : StoreStep) :
    Preserves (fun s : MemoryStore => s.gate.connecting = false) step.perform := by
  intro s hidle
  cases hstep : step.amount? with
  | none => exact (preserves_perform hstep s ⟨hidle, rfl⟩).idle
  | some amount =>
    obtain rfl := eq_increment hstep
    have hcalls : Store.CallsKeep fun s : MemoryStore => s.gate.connecting = false :=
      MemoryStore.callsKeep
        (fun s hs => (Idles.preserves_connection s ⟨hs, rfl⟩).idle)
        (fun s hs => (Idles.preserves_close s ⟨hs, rfl⟩).idle) fun _ _ _ hs => hs
    exact ((hcalls.increment amount).bind fun _ => preserves_pure _) s hidle

end StoreStep

namespace StoreHistory

theorem idle_play {h : StoreHistory} (hidle : h.store.gate.connecting = false)
    (steps : List StoreStep) : (h.play steps).store.gate.connecting = false := by
  induction steps generalizing h with
  | nil => exact hidle
  | cons step steps ih => exact ih (step.idle_perform h.store hidle)

end StoreHistory

end Guestbook
