import Guestbook.Gate.System
import Guestbook.SortedMap

/-!
# Rehearsing a gate

A gate over a connector that follows a script, with callers as numbered tasks and with virtual time.
An attempt made while the connector holds waits for a permit; when it ends, the script says whether
it fails. Tasks go on only when the script lets them run. Time moves only when the script says so,
or by the whole timeout of a wait that times out.

## Main definitions
- `ScriptedConnection`, `GateSystem`: a scripted connector's connections, and the gate over it
- `Rehearsal`: the gate with its connections, the script's settings, the tasks and the clock
- `Rehearsal.Move`, `Rehearsal.Reply`: what the script may do, and what it learns
- `Rehearsal.start`, `Rehearsal.perform`: setting up, and one move
-/

namespace Guestbook

/-- A connection of a scripted connector. -/
structure ScriptedConnection where
  /-- Whether the link is up. -/
  up : Bool := true
  closed : Bool := false
  deriving DecidableEq, Repr

instance : Connection ScriptedConnection where
  isLive conn := conn.up && !conn.closed
  close conn := { conn with closed := true }

/-- A gate over a scripted connector. -/
abbrev GateSystem : Type := ConnectorGate ScriptedConnection

namespace Rehearsal

/-- What a finished task found. -/
inductive Finding where
  | connection (number : Nat)
  | ready
  deriving DecidableEq, Repr

/-- How far a task has come. -/
inductive Task where
  /-- Its attempt waits for a permit. -/
  | attempting
  /-- It waits for readiness until the clock shows `deadline`. -/
  | waiting (timeout : Duration) (deadline : Nat)
  | finished (result : Except BoardError Finding)

end Rehearsal

/-- A gate over a scripted connector, with tasks and a clock. -/
structure Rehearsal where
  system : GateSystem := {}
  /-- How attempts end: with this failure, or well. -/
  failure : Option BoardError := none
  /-- Whether new attempts wait for a permit. -/
  holding : Bool := false
  permits : Nat := 0
  /-- Virtual time in nanoseconds. -/
  clock : Nat := 0
  tasks : SortedMap Nat Rehearsal.Task := .empty
  /-- How many tasks were started. -/
  started : Nat := 0

namespace Rehearsal

/-- Runs an action on the gate and its connections. -/
def atSystem {α : Type} (a : Action GateSystem α) : Action Rehearsal α :=
  a.on (·.system) fun system r => { r with system }

/-- Replaces the state of a task. -/
def setTask (number : Nat) (task : Task) : Action Rehearsal Unit :=
  Action.update fun r => { r with tasks := r.tasks.insert number task }

/-- Forgets a task. -/
def dropTask (number : Nat) : Action Rehearsal Unit :=
  Action.update fun r => { r with tasks := r.tasks.erase number }

/-! ## Attempts -/

/-- Ends the attempt of a caller as the script says. -/
def conclude (caller : Caller) : Action Rehearsal (Except BoardError Nat) := do
  match (← Action.state).failure with
  | some cause =>
    atSystem (ConnectorGate.fail caller cause)
    return .error cause
  | none => return .ok (← atSystem (ConnectorGate.succeed caller {}))

/-- Arrives at the gate. There is no answer if an attempt was started and waits for a permit. -/
def check (caller : Caller) : Action Rehearsal (Option (Except BoardError Nat)) := do
  match ← atSystem (ConnectorGate.arrive caller) with
  | .served conn => return some (.ok conn)
  | .busy => return some (.error .alreadyConnecting)
  | .attempting =>
    let r ← Action.state
    if !r.holding then
      return some (← conclude caller)
    else if 0 < r.permits then
      Action.put { r with permits := r.permits - 1 }
      return some (← conclude caller)
    else
      return none

/-- Hands the result of an attempt to whoever made it. -/
def deliver (caller : Caller) (result : Except BoardError Nat) : Action Rehearsal Unit :=
  match caller, result with
  | .task number, result => setTask number (.finished (result.map .connection))
  | .background, .error cause => Action.report (.firstAttemptFailed cause)
  | _, _ => return ()

/-! ## Running tasks -/

/-- Ends the attempt that waits for a permit, if there is one. -/
def runAttempt : Action Rehearsal Unit := do
  let r ← Action.state
  match r.system.inFlight with
  | caller :: _ =>
    if 0 < r.permits then
      Action.put { r with permits := r.permits - 1 }
      deliver caller (← conclude caller)
  | [] => return ()

/-- Where a task stands once it was let run: readiness is looked at before the clock. -/
def Task.advance (ready : Bool) (isDue : Nat → Bool) : Task → Task
  | .waiting timeout deadline =>
    if ready then .finished (.ok .ready)
    else if isDue deadline then .finished (.error (.notReady timeout))
    else .waiting timeout deadline
  | task => task

/-- Lets the waiting tasks look at the gate, and at the clock if their deadline is due. -/
def runWaiting (isDue : Nat → Bool) : Action Rehearsal Unit :=
  Action.update fun r =>
    let step := Task.advance r.system.gate.ready isDue
    { r with tasks := .ofList (r.tasks.entries.map fun (number, task) => (number, step task)) }

/-- Lets all tasks run until they cannot go on. A task whose deadline has come goes on before the
attempt does, so a connection made now is too late for it. -/
def settle : Action Rehearsal Unit := do
  let now := (← Action.state).clock
  runWaiting fun deadline => deadline ≤ now
  runAttempt
  runWaiting fun deadline => deadline ≤ now

/-- Lets time pass without the tasks running. -/
def elapse (span : Duration) : Action Rehearsal Unit :=
  Action.update fun r => { r with clock := r.clock + span.nanos }

/-- Lets time pass until a wait ends, and the tasks run in between. The wait comes to its end before
a task with the same deadline does. -/
def elapseWaiting (timeout : Duration) : Action Rehearsal Unit := do
  elapse timeout
  let now := (← Action.state).clock
  runWaiting fun deadline => deadline < now

/-- The number of a new task. -/
def newTask : Action Rehearsal Nat := do
  let r ← Action.state
  Action.put { r with started := r.started + 1 }
  return r.started + 1

/-! ## Moves -/

/-- What a script may do. -/
inductive Move where
  | check
  | close
  | wait (timeout : Duration)
  | spawnCheck
  | spawnWait (timeout : Duration)
  | poll (task : Nat)
  | abort (task : Nat)
  | release (permits : Nat)
  | hold (on : Bool)
  | fail (cause : Option BoardError)
  | setLive (conn : Nat) (up : Bool)
  | advance (span : Duration)

/-- What a script learns from a move. -/
inductive Reply where
  | done
  /-- The number of a connection. -/
  | connection (number : Nat)
  /-- The number of a task. -/
  | started (task : Nat)
  /-- Not finished yet. -/
  | pending
  /-- There is no such task, or no more. -/
  | gone
  | finished (result : Except BoardError Finding)

/-- Arrives at the gate and waits for nothing. -/
def checkNow : Action Rehearsal Reply := do
  match ← check .direct with
  | some (.ok conn) => return .connection conn
  | some (.error cause) => Action.fail cause
  | none => return .pending

/-- Waits for readiness; if it does not come, the whole timeout passes. -/
def wait (timeout : Duration) : Action Rehearsal Reply := do
  if !(← Action.state).system.gate.ready then
    elapseWaiting timeout
  atSystem (ConnectorGate.atGate (Gate.awaitReady timeout))
  return .done

/-- Starts a task that arrives at the gate. -/
def spawnCheck : Action Rehearsal Reply := do
  let number ← newTask
  -- Tasks that can go on already do so before the new one.
  settle
  match ← check (.task number) with
  | some result => deliver (.task number) result
  | none => setTask number .attempting
  -- A new connection wakes the tasks that wait for it.
  settle
  return .started number

/-- Starts a task that waits for readiness. -/
def spawnWait (timeout : Duration) : Action Rehearsal Reply := do
  let number ← newTask
  setTask number (.waiting timeout ((← Action.state).clock + timeout.nanos))
  settle
  return .started number

/-- Asks for the result of a task; once told, the task is gone. -/
def poll (number : Nat) : Action Rehearsal Reply := do
  match (← Action.state).tasks.find? number with
  | none => return .gone
  | some (.finished result) =>
    dropTask number
    return .finished result
  | some _ => return .pending

/-- Gives a task up, and with it its attempt. -/
def abort (number : Nat) : Action Rehearsal Reply := do
  if (← Action.state).system.inFlight.contains (.task number) then
    atSystem (ConnectorGate.abandon (.task number))
  dropTask number
  settle
  return .done

/-- One move of a script. -/
def perform : Move → Action Rehearsal Reply
  | .check => checkNow
  | .close => do
    atSystem ConnectorGate.close
    return .done
  | .wait timeout => wait timeout
  | .spawnCheck => spawnCheck
  | .spawnWait timeout => spawnWait timeout
  | .poll number => poll number
  | .abort number => abort number
  | .release permits => do
    Action.update fun r => { r with permits := r.permits + permits }
    settle
    return .done
  | .hold on => do
    Action.update fun r => { r with holding := on }
    return .done
  | .fail cause => do
    Action.update fun r => { r with failure := cause }
    return .done
  | .setLive conn up => do
    atSystem (ConnectorGate.alter conn fun link => { link with up })
    return .done
  | .advance span => do
    elapse span
    settle
    return .done

/-! ## Setting up -/

/-- How a gate is set up. -/
inductive Start where
  /-- Without an attempt. -/
  | idle
  /-- With an attempt in the background. -/
  | background
  /-- With the attempt left to the first caller. -/
  | deferred
  deriving DecidableEq, Repr

/-- Sets up the gate. -/
def start : Start → Action Rehearsal Unit
  | .idle => return ()
  | .deferred => Action.report .attemptDeferred
  | .background => do
    match ← check .background with
    | some result => deliver .background result
    | none => return ()

end Rehearsal

end Guestbook
