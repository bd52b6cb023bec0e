import Guestbook.Store.Memory

/-!
# Requests to a store in memory

Whatever can be asked of a store in memory, as values, so that a run is a list.

## Main definitions
- `StoreRequest`, `StoreReply`: a request, and what it is answered
- `StoreRequest.serve`: serves one request
-/

namespace Guestbook

/-- A request to a store in memory. -/
inductive StoreRequest where
  | put (key : Int64) (r : Record)
  | insertRaw (key : Int64) (r : Record)
  | delete (key : Int64)
  | query (index : String) (low high : Int64)
  | scan
  | count
  | counter
  | increment (amount : Int64)
  /-- The number of records, without passing the gate. -/
  | size
  | isEmpty
  | setReachable (on : Bool)
  | setFailing (on : Bool)
  /-- What the gate shows. -/
  | gate
  /-- Whether the connection that the gate gives is live. -/
  | check
  /-- A fresh connection, asked whether it is live before and after it is closed. -/
  | dial
  | close
  deriving DecidableEq

/-- What a request to a store is answered. -/
inductive StoreReply where
  | done
  | truth (b : Bool)
  | count (n : Nat)
  | word (n : Int64)
  | records (rs : List Record)
  | gate (phase : GatePhase) (ready connected : Bool)
  | liveness (before after : Bool)
  deriving DecidableEq

namespace StoreRequest

/-- Serves one request. -/
def serve : StoreRequest → Action MemoryStore StoreReply
  | put key r => do
    MemoryStore.put key r
    return .done
  | insertRaw key r => do
    Action.update (MemoryStore.insertRaw key r)
    return .done
  | delete key => do return .truth (← MemoryStore.delete key)
  | query index low high => do return .records (← MemoryStore.queryByRange index low high)
  | scan => do return .records (← MemoryStore.scanAll)
  | count => do return .count (← MemoryStore.countAll)
  | counter => do return .word (← MemoryStore.counter)
  | increment amount => do return .word (← MemoryStore.increment amount)
  | size => do return .count (← Action.state).records.size
  | isEmpty => do return .truth ((← Action.state).records.size = 0)
  | setReachable on => do
    Action.update (MemoryStore.setReachable on)
    return .done
  | setFailing on => do
    Action.update (MemoryStore.setFailing on)
    return .done
  | gate => do
    let s ← Action.state
    return .gate s.gate.phase s.gate.ready s.isConnected
  | check => do
    let conn ← MemoryStore.connection
    return .truth (conn.isLive (← Action.state).reachable)
  | dial => do
    let s ← Action.state
    let conn ← Action.orFail s.dial
    return .liveness (conn.isLive s.reachable) (conn.close.isLive s.reachable)
  | close => do
    MemoryStore.close
    return .done

end StoreRequest

end Guestbook
