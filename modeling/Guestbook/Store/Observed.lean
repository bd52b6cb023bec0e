import Guestbook.Store

/-!
# Observed stores

A store around another that notes the calls made, lets chosen calls go wrong before they reach the
store inside, and arranges the records that queries and scans answer. A call that is to go wrong may
be the next one of its operation or any later one.

## Main definitions
- `StoreCall`: a call as it is noted
- `Mishap`: how a call goes wrong
- `ObservedStore`: the store inside, the notes, the mishaps to come and the arrangement
-/

namespace Guestbook

/-- An operation that is noted. -/
inductive StoreMethod where
  | put
  | delete
  | queryByRange
  | scanAll
  | countAll
  | counter
  | increment
  deriving DecidableEq, Repr

/-- A call as it is noted. -/
inductive StoreCall where
  | put (key : Int64)
  | delete (key : Int64)
  | queryByRange (index : String) (low high : Int64)
  | scanAll
  | countAll
  | counter
  | increment (amount : Int64)
  deriving DecidableEq, Repr

/-- How a call goes wrong. -/
inductive Mishap where
  /-- The operation fails for a reason. -/
  | refused (reason : String)
  | notConnected
  | alreadyConnecting
  deriving DecidableEq, Repr

namespace StoreCall

/-- The operation of a call. -/
def method : StoreCall → StoreMethod
  | put _ => .put
  | delete _ => .delete
  | queryByRange .. => .queryByRange
  | scanAll => .scanAll
  | countAll => .countAll
  | counter => .counter
  | increment _ => .increment

open Text.Decimal in
/-- The note of a call. -/
def text : StoreCall → String
  | put key => "put " ++ intText key.toInt
  | delete key => "delete " ++ intText key.toInt
  | queryByRange index low high =>
    "query_by_range " ++ index ++ " " ++ intText low.toInt ++ " " ++ intText high.toInt
  | scanAll => "scan_all"
  | countAll => "count_all"
  | counter => "get_counter"
  | increment amount => "increment " ++ intText amount.toInt

/-- The failure of a call that is refused. -/
def refusal (reason : String) : StoreCall → BoardError
  | put key => .putFailed key reason
  | delete key => .deleteFailed key reason
  | queryByRange index low high => .rangeQueryFailed index low high reason
  | scanAll => .scanFailed reason
  | countAll => .countFailed reason
  | counter => .counterUnavailable reason
  | increment amount => .counterFailed amount reason

/-- The failure of a call that goes wrong. -/
def failure (call : StoreCall) : Mishap → BoardError
  | .refused reason => call.refusal reason
  | .notConnected => .notConnected
  | .alreadyConnecting => .alreadyConnecting

end StoreCall

/-- A store whose calls are observed. -/
structure ObservedStore (σ : Type) where
  inner : σ
  /-- The calls made, latest first. -/
  calls : List StoreCall := []
  /-- What becomes of the next calls of each operation, in turn: a mishap, or none for a call that
  is let through. All calls after them are let through. -/
  mishaps : List (StoreMethod × Option Mishap) := []
  /-- How the records of an answer are arranged, given the number of calls made. -/
  arrange : Nat → List Record → List Record := fun _ records => records

namespace ObservedStore

variable {σ : Type}

/-- The mishap that the next call of an operation meets, if it meets one. -/
def mishapFor? (method : StoreMethod) (s : ObservedStore σ) : Option Mishap :=
  (s.mishaps.find? fun m => m.1 = method).bind (·.2)

/-- The store past the next call of an operation, whatever was to become of it. -/
def withoutMishap (method : StoreMethod) (s : ObservedStore σ) : ObservedStore σ :=
  { s with mishaps := s.mishaps.eraseP fun m => m.1 = method }

/-- Lets a call of an operation go wrong once so many are let through, after the calls whose turn is
already settled. -/
def addMishap (method : StoreMethod) (m : Mishap) (passed : Nat) (s : ObservedStore σ) :
    ObservedStore σ :=
  { s with mishaps := s.mishaps ++ (List.replicate passed (method, none) ++ [(method, some m)]) }

/-- The store once a call is noted and has had its turn. -/
def noted (call : StoreCall) (s : ObservedStore σ) : ObservedStore σ :=
  { s.withoutMishap call.method with calls := call :: s.calls }

/-- Runs an action on the store inside. -/
def inside {α : Type} (a : Action σ α) : Action (ObservedStore σ) α :=
  a.on (·.inner) fun inner s => { s with inner }

/-- Notes a call, then makes it, unless it is to go wrong. -/
def observe {α : Type} (call : StoreCall) (a : Action σ α) : Action (ObservedStore σ) α := fun s =>
  match s.mishapFor? call.method with
  | some m => ⟨.error (.error (call.failure m)), s.noted call, []⟩
  | none => inside a (s.noted call)

/-- Arranges the records of an answer. -/
def arranged (a : Action (ObservedStore σ) (List Record)) :
    Action (ObservedStore σ) (List Record) := do
  let records ← a
  let s ← Action.state
  return s.arrange s.calls.length records

/-- Answers records in reverse from now on, or as they come. -/
def reverse (on : Bool) (s : ObservedStore σ) : ObservedStore σ :=
  { s with arrange := fun _ records => if on then records.reverse else records }

instance [Store σ] : Store (ObservedStore σ) where
  put key r := observe (.put key) (Store.put key r)
  delete key := observe (.delete key) (Store.delete key)
  queryByRange index low high :=
    arranged (observe (.queryByRange index low high) (Store.queryByRange index low high))
  scanAll := arranged (observe .scanAll Store.scanAll)
  countAll := observe .countAll Store.countAll
  counter := observe .counter Store.counter
  increment amount := observe (.increment amount) (Store.increment amount)
  awaitReady timeout := inside (Store.awaitReady timeout)
  isConnected s := Store.isConnected s.inner
  close := inside Store.close

end ObservedStore

end Guestbook
