import Guestbook.Gate.System

/-!
# Runs of a gate

A run makes moves in any order: callers arrive, attempts in flight end in one of three ways, the
held connection is closed, and connections change by themselves. Callers and ends of attempts are
the steps between which a caller waits, so a list of moves is one interleaving of all callers.
Beside the gate goes what was reported so far and how many attempts succeeded.

## Main definitions
- `ConnectorGate.Move`, `ConnectorGate.Move.perform`: a move of a run
- `GateHistory`: a gate with what happened at it
- `GateHistory.play`: a run of moves

## Main statements
- `GateHistory.play_induction`: what every move keeps, a run keeps
- `arrive_of_live`, `arrive_of_busy`, `arrive_of_idle`: what an arrival does
- `perform_succeed`, `perform_fail`, `perform_abandon`, `perform_close`, `perform_alter`: what any
  other move does
-/

namespace Guestbook

/-! ## Moves -/

/-- What a caller is told on arrival: nothing yet if it makes an attempt. -/
def Arrival.reply? {κ : Type} : Arrival κ → Option (Except BoardError κ)
  | .served conn => some (.ok conn)
  | .busy => some (.error .alreadyConnecting)
  | .attempting => none

/-- What is reported of a reply. A failure of the set-up has no one else to tell. -/
def Caller.reports (caller : Caller) : Option (Except BoardError Nat) → List Event
  | some (.error cause) => if caller = .background then [.firstAttemptFailed cause] else []
  | _ => []

namespace ConnectorGate

/-- Something that can happen to a gate with its connections. -/
inductive Move (κ : Type) where
  | arrive (caller : Caller)
  /-- The attempt of a caller ends well, with a new connection. -/
  | succeed (caller : Caller) (connection : κ)
  | fail (caller : Caller) (cause : BoardError)
  /-- The attempt of a caller is given up. -/
  | abandon (caller : Caller)
  | close
  /-- The connection with a number changes by itself. -/
  | alter (number : Nat) (f : κ → κ)

namespace Move

variable {κ : Type}

/-- The caller whose attempt a move ends. -/
def ends? : Move κ → Option Caller
  | succeed caller _ | fail caller _ | abandon caller => some caller
  | arrive _ | close | alter _ _ => none

/-- An attempt ends only while it is in flight. Everything else can happen at any time. -/
def canHappen (s : ConnectorGate κ) (m : Move κ) : Bool :=
  match m.ends? with
  | some caller => s.inFlight.contains caller
  | none => true

/-- How many attempts a move brings to a good end. -/
def successes : Move κ → Nat
  | succeed _ _ => 1
  | _ => 0

/-- Gives a caller its reply. -/
def tell (caller : Caller) (reply : Option (Except BoardError Nat)) :
    Action (ConnectorGate κ) (Option (Except BoardError Nat)) := fun s =>
  ⟨.ok reply, s, caller.reports reply⟩

/-- Makes a move; answers what its caller is told, if there is one and it is told anything. -/
def perform [Connection κ] : Move κ → Action (ConnectorGate κ) (Option (Except BoardError Nat))
  | arrive caller => do
    let arrival ← ConnectorGate.arrive caller
    tell caller arrival.reply?
  | succeed caller connection => do
    let number ← ConnectorGate.succeed caller connection
    tell caller (some (.ok number))
  | fail caller cause => do
    ConnectorGate.fail caller cause
    tell caller (some (.error cause))
  | abandon caller => do
    ConnectorGate.abandon caller
    return none
  | close => do
    ConnectorGate.close
    return none
  | alter number f => do
    ConnectorGate.alter number f
    return none

end Move

end ConnectorGate

/-- A gate with its connections, and what happened at it so far. -/
structure GateHistory (κ : Type) where
  system : ConnectorGate κ := {}
  /-- Everything reported, in order. -/
  events : List Event := []
  /-- How many attempts succeeded. -/
  successes : Nat := 0

namespace GateHistory

open ConnectorGate (Move)

variable {κ : Type} [Connection κ]

/-- The history after a move. -/
def after (h : GateHistory κ) (m : Move κ) : GateHistory κ :=
  let o := m.perform h.system
  { system := o.state, events := h.events ++ o.events, successes := h.successes + m.successes }

/-- One move of a run. A move that cannot happen is passed over. -/
def next (h : GateHistory κ) (m : Move κ) : GateHistory κ :=
  if m.canHappen h.system then h.after m else h

/-- A run of moves. -/
def play (h : GateHistory κ) (moves : List (Move κ)) : GateHistory κ := moves.foldl next h

/-- What every move that can happen keeps, a run keeps. -/
theorem play_induction {P : GateHistory κ → Prop}
    (hstep : ∀ h m, Move.canHappen h.system m = true → P h → P (h.after m)) {h : GateHistory κ}
    (hstart : P h) (moves : List (Move κ)) : P (h.play moves) := by
  induction moves generalizing h with
  | nil => exact hstart
  | cons m moves ih =>
    apply ih
    unfold next
    split
    · next hcan => exact hstep h m hcan hstart
    · -- A move that is passed over changes nothing.
      exact hstart

end GateHistory

/-! ## Arriving at a gate -/

namespace Gate

variable {κ : Type} {live : κ → Bool} {g : Gate κ}

theorem isConnected_iff :
    g.isConnected live = true ↔ ∃ conn, g.held = some conn ∧ live conn = true := by
  rw [isConnected, Option.any_eq_true]

theorem arrive_of_live {conn : κ} (hheld : g.held = some conn) (hlive : live conn = true) :
    arrive live g = ⟨.ok (.served conn), g, []⟩ := by
  simp [arrive, hheld, hlive]

/-- What an arrival reports that is served nothing: whether a dead connection is held. -/
def dropEvents (g : Gate κ) : List Event := if g.held.isSome then [.connectionDropped] else []

theorem events_takeTurn (g : Gate κ) : (takeTurn g).events = [] := by
  unfold takeTurn
  split <;> rfl

/-- Without a live connection an arrival is one for the turn. -/
theorem arrive_of_not_connected (h : g.isConnected live = false) :
    arrive live g = { takeTurn g with events := g.dropEvents } := by
  cases hheld : g.held with
  | none => simp [arrive, dropEvents, hheld, ← events_takeTurn g]
  | some conn =>
    have hdead : live conn = false := by simpa [isConnected, hheld] using h
    simp [arrive, dropEvents, hheld, hdead, events_takeTurn]

end Gate

namespace ConnectorGate

variable {κ : Type} {s : ConnectorGate κ}

/-! ## What the system becomes -/

/-- A caller has started an attempt. -/
def begun (caller : Caller) (s : ConnectorGate κ) : ConnectorGate κ :=
  { s with
    gate := { s.gate with connecting := true }
    inFlight := caller :: s.inFlight
    attempts := s.attempts + 1 }

/-- The attempt of a caller has come to nothing. -/
def freed (caller : Caller) (s : ConnectorGate κ) : ConnectorGate κ :=
  { s with gate := { s.gate with connecting := false }, inFlight := s.inFlight.erase caller }

/-- The attempt of a caller has brought a new connection, which is held from now on. -/
def installed (caller : Caller) (connection : κ) (s : ConnectorGate κ) : ConnectorGate κ :=
  { s with
    gate := { held := some (s.links.length + 1), connecting := false, ready := true }
    links := s.links ++ [{ connection }]
    inFlight := s.inFlight.erase caller }

/-- Nothing is held any more. -/
def emptied (s : ConnectorGate κ) : ConnectorGate κ :=
  { s with gate := { s.gate with held := none } }

/-- A change to one connection is a change to the connections only. -/
theorem modifyLink_eq (number : Nat) (f : Link κ → Link κ) :
    ∃ links, s.modifyLink number f = { s with links } := by
  unfold modifyLink
  split
  · exact ⟨s.links, rfl⟩
  · exact ⟨_, rfl⟩

@[simp] theorem gate_modifyLink (number : Nat) (f : Link κ → Link κ) :
    (s.modifyLink number f).gate = s.gate := by
  obtain ⟨links, hlinks⟩ := modifyLink_eq (s := s) number f
  rw [hlinks]

@[simp] theorem inFlight_modifyLink (number : Nat) (f : Link κ → Link κ) :
    (s.modifyLink number f).inFlight = s.inFlight := by
  obtain ⟨links, hlinks⟩ := modifyLink_eq (s := s) number f
  rw [hlinks]

variable [Connection κ]

@[simp] theorem gate_closeLink (number : Option Nat) : (s.closeLink number).gate = s.gate := by
  cases number <;> simp [closeLink]

@[simp] theorem inFlight_closeLink (number : Option Nat) :
    (s.closeLink number).inFlight = s.inFlight := by
  cases number <;> simp [closeLink]

/-! ## What an arrival does -/

/-- A live connection is served, and nothing changes. -/
theorem arrive_of_live (caller : Caller) {number : Nat} (hheld : s.gate.held = some number)
    (hlive : s.isLive number = true) :
    (Move.arrive caller).perform s = ⟨.ok (some (.ok number)), s, []⟩ := by
  have harrive : arrive caller s = ⟨.ok (.served number), s, []⟩ := by
    simp [arrive, atGate, Action.on, Gate.arrive_of_live hheld hlive]
  simp [Move.perform, bind, Action.andThen, harrive, Move.tell, Arrival.reply?, Caller.reports]

/-- Without a live connection a caller is turned away while an attempt is in flight. -/
theorem arrive_of_busy (caller : Caller) (hdead : s.isConnected = false)
    (hbusy : s.gate.connecting = true) :
    (Move.arrive caller).perform s = ⟨.ok (some (.error .alreadyConnecting)), s,
      s.gate.dropEvents ++ caller.reports (some (.error .alreadyConnecting))⟩ := by
  have harrive : arrive caller s = ⟨.ok .busy, s, s.gate.dropEvents⟩ := by
    simp [arrive, atGate, Action.on, Gate.arrive_of_not_connected hdead, Gate.takeTurn, hbusy]
  simp [Move.perform, bind, Action.andThen, harrive, Move.tell, Arrival.reply?]

/-- Without a live connection a caller starts an attempt while none is in flight. -/
theorem arrive_of_idle (caller : Caller) (hdead : s.isConnected = false)
    (hidle : s.gate.connecting = false) :
    (Move.arrive caller).perform s = ⟨.ok none, s.begun caller, s.gate.dropEvents⟩ := by
  have harrive : arrive caller s = ⟨.ok .attempting, s.begun caller, s.gate.dropEvents⟩ := by
    simp [arrive, atGate, Action.on, Gate.arrive_of_not_connected hdead, Gate.takeTurn, hidle,
      begun]
  simp [Move.perform, bind, Action.andThen, harrive, Move.tell, Arrival.reply?, Caller.reports]

/-- An arrival either changes nothing or starts an attempt at an idle gate, and reports no more than
that a dead connection is held and that the caller was turned away. -/
theorem arrive_cases (caller : Caller) (s : ConnectorGate κ) :
    ∃ reply events, (events = [] ∨ events = s.gate.dropEvents ++ caller.reports reply) ∧
      ((Move.arrive caller).perform s = ⟨.ok reply, s, events⟩ ∨
        s.gate.connecting = false ∧
          (Move.arrive caller).perform s = ⟨.ok reply, s.begun caller, events⟩) := by
  cases hconnected : s.isConnected with
  | true =>
    obtain ⟨number, hheld, hlive⟩ := Gate.isConnected_iff.mp hconnected
    exact ⟨_, _, .inl rfl, .inl (arrive_of_live caller hheld hlive)⟩
  | false =>
    cases hturn : s.gate.connecting with
    | true => exact ⟨_, _, .inr rfl, .inl (arrive_of_busy caller hconnected hturn)⟩
    | false =>
      have harrive := arrive_of_idle caller hconnected hturn
      exact ⟨none, _, .inr (List.append_nil _).symm, .inr ⟨rfl, harrive⟩⟩

/-! ## What any other move does -/

theorem perform_succeed (caller : Caller) (connection : κ) (s : ConnectorGate κ) :
    (Move.succeed caller connection).perform s = ⟨.ok (some (.ok (s.links.length + 1))),
      (s.installed caller connection).closeLink s.gate.held, s.gate.installEvents⟩ := by
  simp [Move.perform, succeed, bind, Action.andThen, Action.update, Action.state, atGate, Action.on,
    Gate.install, installed, withoutAttempt, pure, Action.answer, Gate.installEvents, Move.tell,
    Caller.reports]

theorem perform_fail (caller : Caller) (cause : BoardError) (s : ConnectorGate κ) :
    (Move.fail caller cause).perform s = ⟨.ok (some (.error cause)), s.freed caller,
      .attemptFailed cause :: caller.reports (some (.error cause))⟩ := rfl

theorem perform_abandon (caller : Caller) (s : ConnectorGate κ) :
    (Move.abandon caller).perform s = ⟨.ok none, s.freed caller, []⟩ := rfl

theorem perform_close (s : ConnectorGate κ) :
    Move.close.perform s = ⟨.ok none, s.emptied.closeLink s.gate.held,
      if s.gate.held.isSome then [.connectionClosed] else []⟩ := by
  simp [Move.perform, close, bind, Action.andThen, Action.update, atGate, Action.on, Gate.close,
    pure, Action.answer, emptied]

theorem perform_alter (number : Nat) (f : κ → κ) (s : ConnectorGate κ) :
    (Move.alter number f).perform s = ⟨.ok none,
      s.modifyLink number fun link => { link with connection := f link.connection }, []⟩ := rfl

end ConnectorGate

end Guestbook
