import Guestbook.Action

/-!
# The connection gate

The gate owns the connection to the store. A caller who needs a connection arrives at the gate and
is given the held one if it is live; otherwise at most one caller at a time makes an attempt, and
the others are turned away. The first connection ever made opens the gate for good; the held
connection may still be lost, and is replaced when the next caller notices.

An attempt ends in one of three ways, each of which frees the gate for the next: `install`,
`reject`, or `abandon`. What is closed on the way is handed back, because closing is up to whoever
knows what a connection is.

## Main definitions
- `Gate`: the slot, the attempt flag and the readiness signal
- `Gate.arrive`: what a caller gets
- `Gate.install`, `Gate.reject`, `Gate.abandon`: the ends of an attempt
- `Gate.close`: empties the slot
-/

namespace Guestbook

/-- A gate for connections of type `κ`. -/
structure Gate (κ : Type) where
  /-- The connection in use. -/
  held : Option κ := none
  /-- Whether an attempt is in flight. -/
  connecting : Bool := false
  /-- Whether an attempt ever succeeded. -/
  ready : Bool := false

/-- The phase of a gate. It tells of the readiness signal and not of the link. -/
inductive GatePhase where
  | disconnected
  | connecting
  | connected
  deriving DecidableEq, Repr

/-- The word for a phase. -/
def GatePhase.text : GatePhase → String
  | .disconnected => "Disconnected"
  | .connecting => "Connecting"
  | .connected => "Connected"

/-- What a caller gets at the gate. -/
inductive Arrival (κ : Type) where
  /-- The held connection, which is live. -/
  | served (conn : κ)
  /-- Nothing, because another caller is making an attempt. -/
  | busy
  /-- The turn to make an attempt. -/
  | attempting
  deriving DecidableEq, Repr

namespace Gate

variable {κ : Type}

/-- The phase of a gate. -/
def phase (g : Gate κ) : GatePhase :=
  if g.ready then .connected else if g.connecting then .connecting else .disconnected

/-- Whether a live connection is held. -/
def isConnected (live : κ → Bool) (g : Gate κ) : Bool :=
  g.held.any live

/-! ## Arriving -/

/-- Takes the turn to make an attempt, unless another caller has it. -/
def takeTurn : Action (Gate κ) (Arrival κ) := fun g =>
  if g.connecting then ⟨.ok .busy, g, []⟩
  else ⟨.ok .attempting, { g with connecting := true }, []⟩

/-- Serves a live connection, or takes the turn to make an attempt. -/
def arrive (live : κ → Bool) : Action (Gate κ) (Arrival κ) := fun g =>
  match g.held with
  | none => takeTurn g
  | some conn =>
    if live conn then ⟨.ok (.served conn), g, []⟩
    else
      -- The dead connection stays in the slot until another one replaces it.
      let o := takeTurn g
      { o with events := .connectionDropped :: o.events }

/-! ## The ends of an attempt -/

/-- What is reported when a connection is put into the slot. -/
def installEvents (g : Gate κ) : List Event :=
  (if g.held.isSome then [.replacedConnectionClosed] else [])
    ++ [if g.ready then .connectionReestablished else .connectionReady]

/-- The attempt succeeded: puts the connection into the slot and answers the one it replaces, which
is to be closed. -/
def install (conn : κ) : Action (Gate κ) (Option κ) := fun g =>
  ⟨.ok g.held, { held := some conn, connecting := false, ready := true }, g.installEvents⟩

/-- The attempt failed: nothing changes but that the turn is free. -/
def reject (cause : BoardError) : Action (Gate κ) Unit := fun g =>
  ⟨.ok (), { g with connecting := false }, [.attemptFailed cause]⟩

/-- The attempt was given up: nothing changes but that the turn is free. -/
def abandon : Action (Gate κ) Unit := fun g =>
  ⟨.ok (), { g with connecting := false }, []⟩

/-! ## Other operations -/

/-- Empties the slot and answers what was in it, which is to be closed. -/
def close : Action (Gate κ) (Option κ) := fun g =>
  ⟨.ok g.held, { g with held := none }, if g.held.isSome then [.connectionClosed] else []⟩

/-- Succeeds at once on a gate that is ready and fails after `timeout` on one that is not and does
not become ready in time. -/
def awaitReady (timeout : Duration) : Action (Gate κ) Unit := fun g =>
  if g.ready then ⟨.ok (), g, []⟩ else ⟨.error (.error (.notReady timeout)), g, []⟩

/-- Arrives at the gate and makes an attempt that ends at once with `dialled`. -/
def check (live : κ → Bool) (dialled : Except BoardError κ) : Action (Gate κ) κ := do
  match ← arrive live with
  | .served conn => return conn
  | .busy => Action.fail .alreadyConnecting
  | .attempting =>
    match dialled with
    | .ok conn =>
      let _replaced ← install conn
      return conn
    | .error cause =>
      reject cause
      Action.fail cause

/-- The attempt made when a gate is set up in the background; its failure is only reported. -/
def checkFirst (live : κ → Bool) (dialled : Except BoardError κ) : Action (Gate κ) Unit := do
  match ← Action.attempt (check live dialled) with
  | .ok _ => return ()
  | .error cause => Action.report (.firstAttemptFailed cause)

end Gate

end Guestbook
