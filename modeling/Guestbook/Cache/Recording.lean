import Guestbook.Cache

/-!
# Recording caches

A cache around another that counts the calls made and, while told so, declines every entry offered.
-/

namespace Guestbook

/-- The calls a recording cache has seen. -/
structure CacheCalls where
  gets : Nat := 0
  hits : Nat := 0
  misses : Nat := 0
  sets : Nat := 0
  rejectedSets : Nat := 0
  clears : Nat := 0
  deriving DecidableEq, Repr

/-- A cache with a record of the calls made. -/
structure RecordingCache (γ : Type) where
  inner : γ
  /-- Whether every entry offered is declined. -/
  declining : Bool := false
  calls : CacheCalls := {}

namespace RecordingCache

variable {γ : Type}

/-- Changes the record of calls. -/
def count (f : CacheCalls → CacheCalls) : Action (RecordingCache γ) Unit := fun c =>
  ⟨.ok (), { c with calls := f c.calls }, []⟩

/-- Runs an action on the cache inside. -/
def inside {α : Type} (a : Action γ α) : Action (RecordingCache γ) α :=
  a.on (·.inner) fun inner c => { c with inner }

/-- Declines entries from now on, or no longer. -/
def decline (on : Bool) (c : RecordingCache γ) : RecordingCache γ := { c with declining := on }

/-- Forgets the calls seen. -/
def resetCalls (c : RecordingCache γ) : RecordingCache γ := { c with calls := {} }

variable [Cache γ]

/-- The bytes under a key; the look-up is counted as hit or miss. -/
def get (key : String) : Action (RecordingCache γ) (Option Bytes) := do
  count fun n => { n with gets := n.gets + 1 }
  let found ← inside (Cache.get key)
  if found.isSome then
    count fun n => { n with hits := n.hits + 1 }
  else
    count fun n => { n with misses := n.misses + 1 }
  return found

/-- Offers an entry to the cache inside, unless it is to be declined. -/
def set (key : String) (bytes : Bytes) (cost : Cost) : Action (RecordingCache γ) Bool := do
  count fun n => { n with sets := n.sets + 1 }
  let c ← Action.state
  let accepted ← if c.declining then pure false else inside (Cache.set key bytes cost)
  if !accepted then
    count fun n => { n with rejectedSets := n.rejectedSets + 1 }
  return accepted

/-- Drops every entry. -/
def clear : Action (RecordingCache γ) Unit := do
  count fun n => { n with clears := n.clears + 1 }
  inside Cache.clear

instance : Cache (RecordingCache γ) where
  get := get
  set := set
  clear := clear
  stats := fun c => Cache.stats c.inner

end RecordingCache

end Guestbook
