import Guestbook.Duration
import Guestbook.Error

/-!
# Waiting for readiness

Whoever waits for readiness holds a future under a deadline. Both are made by an asynchronous
run-time, which is a parameter here: how it waits for a watched value, and how it keeps a deadline.
A future is what it answers poll by poll.

## Main definitions
- `Future`: the answers of a future, poll by poll
- `Runtime`: what the gate uses of a run-time
- `Runtime.awaitReady`: the wait for readiness over any run-time
- `Runtime.ticking`: a run-time that polls at every nanosecond
-/

namespace Guestbook

/-- A future, as what it answers at each poll; nothing while it is not finished. -/
abbrev Future (α : Type) : Type := Nat → Option α

/-- What the gate uses of an asynchronous run-time. -/
structure Runtime where
  /-- Waits until a watched value is true, given the value at each poll. The wait ends with an error
  once nobody is left who could change the value. -/
  waitFor : (Nat → Bool) → Future (Except Unit Unit)
  /-- The answer of a future, unless its time is over first. -/
  within : {α : Type} → Duration → Future α → Option α

namespace Runtime

/-- Waits for readiness, given the readiness signal at each poll. -/
def awaitReady (r : Runtime) (timeout : Duration) (ready : Nat → Bool) : Except BoardError Unit :=
  match r.within timeout (r.waitFor ready) with
  | some (.ok ()) => .ok ()
  | some (.error ()) => .error .notConnected
  | none => .error (.notReady timeout)

/-- A run-time that polls a future at once and then at every nanosecond up to the deadline, and in
which somebody can always change a watched value. -/
def ticking : Runtime where
  waitFor value poll := if value poll then some (.ok ()) else none
  within timeout future := (List.range (timeout.nanos + 1)).findSome? future

end Runtime

end Guestbook
