import Guestbook.Gate

/-!
# A gate with its connections

The gate together with every connection its connector ever produced and the attempts in flight.
Callers, ends of attempts, closing and changes of a link follow each other in any order. What a
connection is, when it is live and what closing does to it is up to the connector.

## Main definitions
- `Connection`: what the gate asks of a connection
- `Link`: a connection and how often it was closed
- `ConnectorGate`: gate, connections and attempts in flight
- `ConnectorGate.arrive`, `ConnectorGate.succeed`, `ConnectorGate.fail`, `ConnectorGate.abandon`,
  `ConnectorGate.close`, `ConnectorGate.alter`: what can happen
-/

namespace Guestbook

/-- What the gate asks of a connection of type `κ`. -/
class Connection (κ : Type) where
  /-- Whether the connection can still reach the store. -/
  isLive : κ → Bool
  /-- The connection once it is closed. -/
  close : κ → κ

/-- A connection that the connector produced. -/
structure Link (κ : Type) where
  connection : κ
  /-- How often the gate closed the connection. -/
  closes : Nat := 0
  deriving DecidableEq, Repr

/-- A connection once the gate has closed it, or has closed it again. -/
def Link.close {κ : Type} [Connection κ] (link : Link κ) : Link κ :=
  { connection := Connection.close link.connection, closes := link.closes + 1 }

/-- Who made an attempt. -/
inductive Caller where
  /-- The set-up of the gate. -/
  | background
  /-- A caller who waits for the answer on the spot. -/
  | direct
  /-- A task with a number. -/
  | task (number : Nat)
  deriving DecidableEq, Repr

/-- A gate over a connector, the connections that it produced and the attempts in flight.
Connections are numbered from one in the order in which they were made. -/
structure ConnectorGate (κ : Type) where
  gate : Gate Nat := {}
  links : List (Link κ) := []
  inFlight : List Caller := []
  /-- How many attempts were started. -/
  attempts : Nat := 0

namespace ConnectorGate

variable {κ : Type}

/-- The connection with a number. -/
def link? (s : ConnectorGate κ) (number : Nat) : Option (Link κ) :=
  if number = 0 then none else s.links[number - 1]?

/-- Changes the connection with a number. -/
def modifyLink (number : Nat) (f : Link κ → Link κ) (s : ConnectorGate κ) : ConnectorGate κ :=
  if number = 0 then s else { s with links := s.links.modify (number - 1) f }

/-- Runs an action on the gate. -/
def atGate {α : Type} (a : Action (Gate Nat) α) : Action (ConnectorGate κ) α :=
  a.on (·.gate) fun gate s => { s with gate }

/-- The system without the attempt of `caller`. -/
def withoutAttempt (caller : Caller) (s : ConnectorGate κ) : ConnectorGate κ :=
  { s with inFlight := s.inFlight.erase caller }

/-! ## What needs no connection -/

/-- The attempt of a caller fails. -/
def fail (caller : Caller) (cause : BoardError) : Action (ConnectorGate κ) Unit := do
  Action.update (withoutAttempt caller)
  atGate (Gate.reject cause)

/-- The attempt of a caller is given up. -/
def abandon (caller : Caller) : Action (ConnectorGate κ) Unit := do
  Action.update (withoutAttempt caller)
  atGate Gate.abandon

/-- A connection changes by itself, as when its link goes up or down. -/
def alter (number : Nat) (f : κ → κ) : Action (ConnectorGate κ) Unit :=
  Action.update (modifyLink number fun link => { link with connection := f link.connection })

/-! ## What asks or closes connections -/

variable [Connection κ]

/-- Whether the connection with a number is live. -/
def isLive (s : ConnectorGate κ) (number : Nat) : Bool :=
  match s.link? number with
  | some link => Connection.isLive link.connection
  | none => false

/-- Whether a live connection is held. -/
def isConnected (s : ConnectorGate κ) : Bool := s.gate.isConnected s.isLive

/-- Closes a connection. -/
def closeLink (number : Option Nat) (s : ConnectorGate κ) : ConnectorGate κ :=
  match number with
  | some n => s.modifyLink n Link.close
  | none => s

/-- A caller arrives; an attempt that this starts is in flight from then on. -/
def arrive (caller : Caller) : Action (ConnectorGate κ) (Arrival Nat) := fun s =>
  let o := atGate (Gate.arrive s.isLive) s
  match o.answer with
  | .ok .attempting =>
    { o with
      state :=
        { o.state with
          inFlight := caller :: o.state.inFlight
          attempts := o.state.attempts + 1 } }
  | _ => o

/-- The attempt of a caller succeeds with a new connection, whose number is the answer. -/
def succeed (caller : Caller) (connection : κ) : Action (ConnectorGate κ) Nat := do
  Action.update fun s => { s.withoutAttempt caller with links := s.links ++ [{ connection }] }
  let number := (← Action.state).links.length
  let replaced ← atGate (Gate.install number)
  Action.update (closeLink replaced)
  return number

/-- The held connection, if any, is closed and dropped. -/
def close : Action (ConnectorGate κ) Unit := do
  let number ← atGate Gate.close
  Action.update (closeLink number)

end ConnectorGate

end Guestbook
