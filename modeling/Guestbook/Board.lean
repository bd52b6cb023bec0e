import Guestbook.Cache
import Guestbook.Config
import Guestbook.Json.Decode
import Guestbook.Json.Encode
import Guestbook.Record.Message
import Guestbook.Store

/-!
# The board

A board posts, deletes and reads messages. It keeps them in a store and encoded reads in a cache.
Every write drops the whole cache, so an entry never outlives the messages it was made from.

## Main definitions
- `Board`: a store, a cache and the index for range queries
- `Board.post`, `Board.delete`: the writes
- `Board.all`, `Board.range`, `Board.count`: reads straight from the store
- `Board.allCached`, `Board.page`: reads through the cache
- `Board.lastMessages`: the messages with the highest ids
-/

namespace Guestbook

/-- A board over a store of type `σ` and a cache of type `γ`. -/
structure Board (σ γ : Type) where
  store : σ
  cache : γ
  /-- The index that range queries use. -/
  index : String := Bin.id

namespace Board

variable {σ γ : Type}

/-! ## Parts -/

/-- Runs an action on the store. -/
def atStore {α : Type} (a : Action σ α) : Action (Board σ γ) α :=
  a.on (·.store) fun store b => { b with store }

/-- Runs an action on the cache. -/
def atCache {α : Type} (a : Action γ α) : Action (Board σ γ) α :=
  a.on (·.cache) fun cache b => { b with cache }

/-- Uses another index for range queries. -/
def withIndex (index : String) (b : Board σ γ) : Board σ γ := { b with index }

variable [Store σ] [Cache γ]

/-- Waits for the first connection of the store. -/
def awaitReady (timeout : Duration) : Action (Board σ γ) Unit :=
  atStore (Store.awaitReady timeout)

/-- Whether the store is connected. -/
def isConnected (b : Board σ γ) : Bool := Store.isConnected b.store

/-- Closes the store's connection. -/
def close : Action (Board σ γ) Unit := atStore Store.close

/-- Sets a new board up with settings and waits for the store's first connection. -/
def connect (config : StoreConfig) : Action (Board σ γ) Unit := do
  Action.orFail config.validate
  Action.update (withIndex config.indexName)
  awaitReady config.readyTimeout
  Action.report (.boardReady config.indexName)

/-! ## Writes -/

/-- Posts a message under a new id, which is the answer. Once an id is issued the cache is dropped,
even if the message cannot be stored. -/
def post (m : Message) : Action (Board σ γ) Int64 := do
  let id ← atStore (Store.increment 1)
  let stored ← Action.attempt (atStore (Store.put id (Record.ofMessage { m with id })))
  -- A failed `put` may have stored the message all the same, so the cache is dropped first.
  atCache Cache.clear
  Action.orFail stored
  Action.report (.messageStored id)
  return id

/-- Deletes a message; answers whether there was one. The cache is dropped in any case. -/
def delete (id : Int64) : Action (Board σ γ) Bool := do
  -- Dropped first: a delete that fails may have had its effect all the same.
  atCache Cache.clear
  let existed ← atStore (Store.delete id)
  Action.report (if existed then .messageDeleted id else .unknownMessageDeleted id)
  return existed

/-! ## Reads from the store -/

/-- All messages in store order, or sorted by timestamp. -/
def all (byTimestamp : Bool) : Action (Board σ γ) (List Message) := do
  let records ← atStore Store.scanAll
  let ms ← Action.reporting (Record.toMessages records)
  return if byTimestamp then Message.sortByTimestamp ms else ms

/-- The messages with ids in a range, both ends included, in store order. -/
def range (low high : Int64) : Action (Board σ γ) (List Message) := do
  let b ← Action.state
  let records ← atStore (Store.queryByRange b.index low high)
  Action.reporting (Record.toMessages records)

/-- The number of messages. -/
def count : Action (Board σ γ) Nat := atStore Store.countAll

/-- Where a search of `span` ids up to `lastId` starts; there are no ids below zero. -/
def searchStart (lastId span : Int64) : Except Fault Int64 := do
  let reach ← Word.sub span 1
  return max 0 (Word.saturatingSub lastId reach)

/-- The last `size` messages in id order. -/
def lastOf (size : Int64) (ms : List Message) : List Message :=
  (Message.sortById ms).drop (ms.length - size.toInt.toNat)

/-- Searches the ids up to `lastId` for `size` messages, in ranges that double until they hold that
many or reach id zero. A range that can double no more would be searched for ever. -/
def searchLast (size lastId span : Int64) : Action (Board σ γ) (List Message) := do
  let low ← Action.orFault (searchStart lastId span)
  let ms ← range low lastId
  if size ≤ Int64.ofNat ms.length ∨ low = 0 then
    -- There is nothing to find below, or no need for it.
    return lastOf size ms
  else if _h : span.toInt < (Word.saturatingDouble span).toInt then
    searchLast size lastId (Word.saturatingDouble span)
  else
    Action.stop .endless
termination_by (Word.greatest - span.toInt).toNat
decreasing_by
  have := (Word.saturatingDouble span).toInt_lt
  simp only [Word.greatest]
  omega

/-- The `size` messages with the highest ids, in id order. Ids have gaps, so the range below the
counter widens until it holds enough messages. -/
def lastMessages (size : Int64) : Action (Board σ γ) (List Message) := do
  let lastId ← atStore Store.counter
  searchLast size lastId size

/-! ## Reads through the cache -/

/-- The messages cached under a key. -/
def cached (key : String) : Action (Board σ γ) (Option (List Message)) := do
  match ← atCache (Cache.get key) with
  | none => return none
  | some bytes =>
    match Json.decodeMessages bytes with
    | .ok ms => return some ms
    -- An entry that cannot be read is a failure and not a miss.
    | .error e => Action.fail (.unreadableEntry key e.text)

/-- Offers messages to the cache under a key, at the cost of their encoded length. -/
def populate (key : String) (ms : List Message) : Action (Board σ γ) Unit := do
  let bytes := Json.encodeMessages ms
  let cost := UInt64.ofNat bytes.length
  let accepted ← atCache (Cache.set key bytes cost)
  if !accepted then
    Action.report (.entryDeclined key cost)

/-- All messages through the cache, in whatever order they were cached. -/
def allCached (byTimestamp : Bool) : Action (Board σ γ) (List Message) := do
  match ← cached Page.allMessagesKey with
  | some ms =>
    Action.report (.listHit Page.allMessagesKey)
    return ms
  | none =>
    let ms ← all byTimestamp
    populate Page.allMessagesKey ms
    return ms

/-- The messages of a page window. -/
def readWindow (size : Int64) : PageWindow → Action (Board σ γ) (List Message)
  | .ids low high => do return Message.sortById (← range low high)
  | .last => lastMessages size

/-- One page of messages. A page that the whole board fits on is the cached full list; any other is
in id order, and pages past the end are the last `size` messages. -/
def page (page size : Int64) : Action (Board σ γ) (List Message) := do
  if page < 1 ∨ size < 1 then
    Action.fail (.invalidPage page size)
  let total := Int64.ofNat (← count)
  if total ≤ size then
    -- The order of the full list is the one it was cached in.
    allCached false
  else
    let key := Page.key page size
    match ← cached key with
    | some ms =>
      Action.report (.pageHit key)
      return ms
    | none =>
      let window ← Action.orFault (PageWindow.of page size total)
      Action.report (.pageMiss page size total window)
      let ms ← readWindow size window
      populate key ms
      return ms

end Board

end Guestbook
