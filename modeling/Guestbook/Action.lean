import Guestbook.Event

/-!
# Actions

An action reads and changes a state, reports events, and ends with an answer or stops early. What it
changed and reported before it stopped stays.

## Main definitions
- `Stop`: why an action ended without an answer
- `Outcome`: answer, state and events of a run
- `Action`: a function from a state to an outcome, with its monad
- `Action.on`: an action on a part of a larger state
-/

namespace Guestbook

/-- Why an action ended without an answer. -/
inductive Stop where
  /-- The operation failed. -/
  | error (cause : BoardError)
  /-- Word arithmetic went out of range. -/
  | fault (cause : Fault)
  /-- The operation would repeat the same step for ever. -/
  | endless
  deriving DecidableEq, Repr

/-- What a run of an action leaves. -/
structure Outcome (σ α : Type) where
  answer : Except Stop α
  state : σ
  events : List Event

/-- An action on a state of type `σ` with answers of type `α`. -/
def Action (σ α : Type) : Type := σ → Outcome σ α

namespace Action

variable {σ τ α β : Type}

/-- Runs an action. -/
def run (a : Action σ α) (s : σ) : Outcome σ α := a s

/-- Answers at once. -/
def answer (x : α) : Action σ α := fun s => ⟨.ok x, s, []⟩

/-- Stops at once. -/
def stop (why : Stop) : Action σ α := fun s => ⟨.error why, s, []⟩

/-- Runs `a`, then what follows its answer; a stop of `a` is final. -/
def andThen (a : Action σ α) (next : α → Action σ β) : Action σ β := fun s =>
  match a s with
  | ⟨.ok x, s', events⟩ =>
    let rest := next x s'
    ⟨rest.answer, rest.state, events ++ rest.events⟩
  | ⟨.error why, s', events⟩ => ⟨.error why, s', events⟩

instance : Monad (Action σ) where
  pure := answer
  bind := andThen

/-- Fails with a cause. -/
def fail (cause : BoardError) : Action σ α := stop (.error cause)

/-- The state. -/
def state : Action σ σ := fun s => ⟨.ok s, s, []⟩

/-- Replaces the state. -/
def put (s : σ) : Action σ Unit := fun _ => ⟨.ok (), s, []⟩

/-- Changes the state. -/
def update (f : σ → σ) : Action σ Unit := fun s => ⟨.ok (), f s, []⟩

/-- Reports one event. -/
def report (event : Event) : Action σ Unit := fun s => ⟨.ok (), s, [event]⟩

/-- Answers `x` and reports the events that came with it. -/
def reporting (x : α × List Event) : Action σ α := fun s => ⟨.ok x.1, s, x.2⟩

/-- The answer of a computation that may fail. -/
def orFail (x : Except BoardError α) : Action σ α :=
  match x with
  | .ok x => answer x
  | .error cause => fail cause

/-- The answer of a computation that may go out of range. -/
def orFault (x : Except Fault α) : Action σ α :=
  match x with
  | .ok x => answer x
  | .error cause => stop (.fault cause)

/-- Runs an action and answers its failure too; a fault still stops. -/
def attempt (a : Action σ α) : Action σ (Except BoardError α) := fun s =>
  match a s with
  | ⟨.ok x, s', events⟩ => ⟨.ok (.ok x), s', events⟩
  | ⟨.error (.error cause), s', events⟩ => ⟨.ok (.error cause), s', events⟩
  | ⟨.error why, s', events⟩ => ⟨.error why, s', events⟩

/-- Runs an action on the part of the state that `get` reads and `set` writes back. -/
def on (get : σ → τ) (set : τ → σ → σ) (a : Action τ α) : Action σ α := fun s =>
  let o := a (get s)
  ⟨o.answer, set o.state s, o.events⟩

end Action

end Guestbook
