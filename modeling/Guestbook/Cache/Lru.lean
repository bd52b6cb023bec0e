import Guestbook.Cache
import Guestbook.Config

/-!
# The cost-bounded cache

A cache with a budget for the total cost of its entries. An entry that costs more than the budget is
declined; any other is taken, and the entries that were not used for the longest time make room.

## Main definitions
- `LruCache`: entries from the most to the least recently used
- `LruCache.makeRoom`: drops entries until a new one fits
- `LruCache.get`, `LruCache.set`, `LruCache.clear`
-/

namespace Guestbook

namespace LruCache

/-- An entry with its cost. -/
structure Entry where
  key : String
  bytes : Bytes
  cost : Cost
  deriving DecidableEq, Repr

end LruCache

/-- A cache bounded by total cost. -/
structure LruCache where
  /-- The greatest total cost. -/
  maxCost : Cost
  /-- The entries, most recently used first. -/
  entries : List LruCache.Entry := []
  /-- Total cost of the entries, kept up to date by every operation. -/
  cost : Cost := 0
  hits : Nat := 0
  misses : Nat := 0
  rejections : Nat := 0
  evictions : Nat := 0
  clears : Nat := 0

namespace LruCache

/-- An empty cache with valid settings. -/
def ofConfig (config : CacheConfig) : Except BoardError LruCache :=
  match config.validate with
  | .ok () => .ok { maxCost := config.maxCost }
  | .error e => .error e

/-- The entry under a key. -/
def find? (c : LruCache) (key : String) : Option Entry :=
  c.entries.find? fun e => e.key = key

/-- The entries without the one under `key`. -/
def without (key : String) (entries : List Entry) : List Entry :=
  entries.eraseP fun e => e.key = key

/-- The bytes under a key. A hit makes its entry the most recently used one. -/
def get (key : String) : Action LruCache (Option Bytes) := fun c =>
  match c.find? key with
  | some e =>
    ⟨.ok (some e.bytes), { c with entries := e :: without key c.entries, hits := c.hits + 1 }, []⟩
  | none => ⟨.ok none, { c with misses := c.misses + 1 }, []⟩

/-! ## Making room -/

/-- What is left after making room. -/
structure Room where
  /-- Whether the arithmetic of the costs went well. -/
  answer : Except Fault Unit
  /-- Entries kept, least recently used first. -/
  kept : List Entry
  /-- Recorded cost of the entries kept. -/
  cost : Cost
  /-- Entries dropped, in the order of dropping. -/
  dropped : List Entry

/-- Drops entries, least recently used first, until `incoming` fits beside the rest. -/
def makeRoom (maxCost incoming : Cost) : List Entry → Cost → Room
  | [], cost =>
    match Cost.add cost incoming with
    | .ok _ => ⟨.ok (), [], cost, []⟩
    | .error fault => ⟨.error fault, [], cost, []⟩
  | e :: rest, cost =>
    match Cost.add cost incoming with
    | .error fault => ⟨.error fault, e :: rest, cost, []⟩
    | .ok total =>
      if total ≤ maxCost then ⟨.ok (), e :: rest, cost, []⟩
      else
        match Cost.sub cost e.cost with
        -- The entry is gone before its cost is taken off.
        | .error fault => ⟨.error fault, rest, cost, []⟩
        | .ok left =>
          let room := makeRoom maxCost incoming rest left
          { room with dropped := e :: room.dropped }

/-- Drops entries until `incoming` fits; each one is reported and counted. -/
def evict (incoming : Cost) : Action LruCache Unit := fun c =>
  let room := makeRoom c.maxCost incoming c.entries.reverse c.cost
  ⟨room.answer.mapError .fault,
    { c with
      entries := room.kept.reverse
      cost := room.cost
      evictions := c.evictions + room.dropped.length },
    room.dropped.map fun e => .entryEvicted e.key e.cost⟩

/-- Drops the entry under `key`, if there is one, and its cost. -/
def release (key : String) : Action LruCache Unit := fun c =>
  match c.find? key with
  | none => ⟨.ok (), c, []⟩
  | some e =>
    let c := { c with entries := without key c.entries }
    match Cost.sub c.cost e.cost with
    | .ok left => ⟨.ok (), { c with cost := left }, []⟩
    | .error fault => ⟨.error (.fault fault), c, []⟩

/-- Makes an entry the most recently used one and adds its cost. -/
def push (e : Entry) : Action LruCache Unit := fun c =>
  let c := { c with entries := e :: c.entries }
  match Cost.add c.cost e.cost with
  | .ok total => ⟨.ok (), { c with cost := total }, []⟩
  | .error fault => ⟨.error (.fault fault), c, []⟩

/-- Declines an entry that costs more than the budget. -/
def decline (key : String) (cost : Cost) : Action LruCache Bool := fun c =>
  ⟨.ok false, { c with rejections := c.rejections + 1 }, [.entryTooCostly key cost c.maxCost]⟩

/-- Takes an entry that the budget can hold, instead of one with the same key. -/
def accept (e : Entry) : Action LruCache Bool := do
  -- The old entry under the key goes first, so its cost is not counted twice.
  release e.key
  evict e.cost
  push e
  return true

/-- Offers an entry. -/
def set (key : String) (bytes : Bytes) (cost : Cost) : Action LruCache Bool := fun c =>
  if c.maxCost < cost then decline key cost c else accept ⟨key, bytes, cost⟩ c

/-- Drops every entry. -/
def clear : Action LruCache Unit := fun c =>
  ⟨.ok (), { c with entries := [], cost := 0, clears := c.clears + 1 }, []⟩

/-- Use and contents. -/
def stats (c : LruCache) : CacheStats :=
  { hits := c.hits
    misses := c.misses
    entryCount := c.entries.length
    cost := c.cost.toNat
    rejections := c.rejections
    evictions := c.evictions
    clears := c.clears }

instance : Cache LruCache where
  get := get
  set := set
  clear := clear
  stats := stats

end LruCache

end Guestbook
