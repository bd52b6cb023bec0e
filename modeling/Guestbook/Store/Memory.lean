import Guestbook.Gate
import Guestbook.Store

/-!
# The store in memory

Records in key order, a counter record kept apart from them, and two switches: whether the store can
be reached, and whether queries, scans and counts fail. Every operation but the raw ones passes the
gate; an attempt to connect ends at once.

## Main definitions
- `MemoryStore`: records, counter, gate and switches
- `MemoryStore.connected`: passes the gate before an operation
- `MemoryStore.queryByRange`, `MemoryStore.increment`, ...: the operations
-/

namespace Guestbook

/-- A connection to a store in memory. It lives while the store can be reached. -/
structure MemoryConnection where
  closed : Bool := false
  deriving DecidableEq, Repr

namespace MemoryConnection

/-- Whether a connection is live. -/
def isLive (reachable : Bool) (conn : MemoryConnection) : Bool :=
  reachable && !conn.closed

/-- The connection once it is closed. -/
def close (_conn : MemoryConnection) : MemoryConnection := { closed := true }

end MemoryConnection

/-- A store in memory. -/
structure MemoryStore where
  gate : Gate MemoryConnection := {}
  reachable : Bool := true
  /-- Whether queries, scans and counts fail. -/
  failing : Bool := false
  records : SortedMap Int64 Record := .empty
  /-- The counter record, once it was incremented. -/
  counterRecord : Option Record := none

namespace MemoryStore

/-! ## Connections -/

/-- Makes a connection, if the store can be reached. -/
def dial (s : MemoryStore) : Except BoardError MemoryConnection :=
  if s.reachable then .ok {} else .error (.connectFailed "store unreachable")

/-- Runs an action on the gate. -/
def atGate {α : Type} (a : Action (Gate MemoryConnection) α) : Action MemoryStore α :=
  a.on (·.gate) fun gate s => { s with gate }

/-- A live connection: the one held, or a new one. -/
def connection : Action MemoryStore MemoryConnection := fun s =>
  atGate (Gate.check (MemoryConnection.isLive s.reachable) s.dial) s

/-- The attempt made when the store is set up. -/
def connectFirst : Action MemoryStore Unit := fun s =>
  atGate (Gate.checkFirst (MemoryConnection.isLive s.reachable) s.dial) s

/-- Runs an action after passing the gate. -/
def connected {α : Type} (a : Action MemoryStore α) : Action MemoryStore α := do
  let _conn ← connection
  a

/-- Whether a live connection is held. -/
def isConnected (s : MemoryStore) : Bool :=
  s.gate.isConnected (MemoryConnection.isLive s.reachable)

/-- Drops the connection held. -/
def close : Action MemoryStore Unit := do
  let _conn ← atGate Gate.close
  return ()

/-- Waits for the first connection. -/
def awaitReady (timeout : Duration) : Action MemoryStore Unit :=
  atGate (Gate.awaitReady timeout)

/-! ## Switches -/

/-- Makes the store reachable or not. -/
def setReachable (on : Bool) (s : MemoryStore) : MemoryStore := { s with reachable := on }

/-- Makes queries, scans and counts fail or not. -/
def setFailing (on : Bool) (s : MemoryStore) : MemoryStore := { s with failing := on }

/-- Fails with a cause while queries, scans and counts are to fail. -/
def requireWorking (cause : String → BoardError) : Action MemoryStore Unit := fun s =>
  if s.failing then ⟨.error (.error (cause "injected store failure")), s, []⟩ else ⟨.ok (), s, []⟩

/-! ## Records -/

/-- Puts a record under a key without passing the gate. -/
def insertRaw (key : Int64) (r : Record) (s : MemoryStore) : MemoryStore :=
  { s with records := s.records.insert key r }

/-- Puts a record under a key. -/
def put (key : Int64) (r : Record) : Action MemoryStore Unit :=
  connected (Action.update (insertRaw key r))

/-- Deletes the record under a key; answers whether there was one. -/
def delete (key : Int64) : Action MemoryStore Bool :=
  connected fun s =>
    if s.records.contains key then ⟨.ok true, { s with records := s.records.erase key }, []⟩
    else ⟨.ok false, s, []⟩

/-- Whether a bin of a record is an integer between two others. -/
def inRange (bin : String) (low high : Int64) (r : Record) : Bool :=
  match r.find? bin with
  | some (.int n) => low ≤ n && n ≤ high
  | _ => false

/-- The records whose bin of the index lies in a range, in key order. There is one index, over the
ids. -/
def queryByRange (index : String) (low high : Int64) : Action MemoryStore (List Record) :=
  connected do
    requireWorking (.rangeQueryFailed index low high)
    if index ≠ Bin.id then
      Action.fail (.rangeQueryFailed index low high ("no secondary index on " ++ index))
    let s ← Action.state
    return s.records.values.filter (inRange index low high)

/-- All records in key order. -/
def scanAll : Action MemoryStore (List Record) :=
  connected do
    requireWorking .scanFailed
    return (← Action.state).records.values

/-- The number of records. -/
def countAll : Action MemoryStore Nat :=
  connected do
    requireWorking .countFailed
    return (← Action.state).records.size

/-! ## The counter -/

/-- The value in a counter record; a record without one fails with a cause. -/
def counterValue (r : Record) : Except BoardError Int64 :=
  match r.find? Bin.count with
  | some (.int n) => .ok n
  | some other => .error (.counterUnavailable ("counter bin holds " ++ other.kind))
  | none => .error (.counterUnavailable "counter bin missing")

/-- The value of the counter. -/
def counter : Action MemoryStore Int64 :=
  connected do
    match (← Action.state).counterRecord with
    | some r => Action.orFail (counterValue r)
    | none => Action.fail (.counterUnavailable "counter record not found")

/-- The value that an increment starts from: zero where there is none. -/
def incrementStart (amount : Int64) (r : Record) : Except BoardError Int64 :=
  match r.find? Bin.count with
  | some (.int n) => .ok n
  | some other => .error (.counterFailed amount ("counter bin holds " ++ other.kind))
  | none => .ok 0

/-- The counter record, made if there is none. -/
def openCounter : Action MemoryStore Record := fun s =>
  let r := s.counterRecord.getD .empty
  ⟨.ok r, { s with counterRecord := some r }, []⟩

/-- Adds to the counter; answers its new value. -/
def increment (amount : Int64) : Action MemoryStore Int64 :=
  connected do
    let r ← openCounter
    let current ← Action.orFail (incrementStart amount r)
    let next ← Action.orFault (Word.add current amount)
    Action.update fun s => { s with counterRecord := some (r.insert Bin.count (.int next)) }
    return next

instance : Store MemoryStore where
  put := put
  delete := delete
  queryByRange := queryByRange
  scanAll := scanAll
  countAll := countAll
  counter := counter
  increment := increment
  awaitReady := awaitReady
  isConnected := isConnected
  close := close

end MemoryStore

end Guestbook
