import Guestbook.Board.Request
import Guestbook.Cache.Request
import Guestbook.Store.Observed
import Guestbook.Store.Request

/-!
# The bench

A board over an observed store in memory and a recording cache, with a way to reach past the board
to either of them: everything is set up here to try the board out.

## Main definitions
- `Bench`: the board with its store and cache
- `Bench.Setup`, `Bench.prepare`, `Bench.prepareFixture`: setting up
- `Bench.Step`, `Bench.Reply`, `Bench.perform`: one step of a run
-/

namespace Guestbook

/-- A board with an observed store in memory and a recording cache. -/
abbrev Bench : Type := Board (ObservedStore MemoryStore) ObservedCache

namespace Bench

/-! ## Sample messages -/

/-- The message of an author at a time. -/
def messageAt (author : String) (timestamp : Int64) : Message :=
  { author, text := "hello from " ++ author, timestamp }

/-- So many messages of the default author, a minute apart. -/
def spacedMessages (n : Nat) : List Message :=
  (List.range n).map fun k => messageAt Message.defaultAuthor (1700000000 + 60 * Int64.ofNat k)

/-- The message of an author so many seconds after a time. -/
def messageAfter (author : String) (timestamp : Int64) (k : Nat) : Except Fault Message :=
  (Word.add timestamp (Int64.ofNat k)).map (messageAt author)

/-! ## Setting up -/

/-- How a bench is set up. -/
structure Setup where
  /-- Whether the first attempt to connect is left to the first use. -/
  deferred : Bool := false
  /-- Settings to set the board up with. -/
  connect : Option StoreConfig := none
  /-- Another index for range queries. -/
  index : Option String := none
  /-- How many messages to post. -/
  seed : Nat := 0

/-- A bench before it is set up. -/
def fresh (reachable : Bool) (cache : CacheBackend) : Bench :=
  { store := { inner := { reachable } }, cache := { inner := cache } }

/-- Runs an action on the store in memory, unobserved. -/
def atMemory {α : Type} (a : Action MemoryStore α) : Action Bench α :=
  Board.atStore (ObservedStore.inside a)

/-- Makes messages and posts each before the next is made. Every post has an answer of its own,
failures included; a fault stops them all. -/
def postEach {α : Type} (make : α → Except Fault Message) :
    List α → Action Bench (List (Except BoardError Int64))
  | [] => return []
  | x :: xs => do
    let m ← Action.orFault (make x)
    let id ← Action.attempt (Board.post m)
    let ids ← postEach make xs
    return id :: ids

/-- Forgets the calls that the cache has seen. -/
def resetCalls : Action Bench Unit :=
  Board.atCache (Action.update RecordingCache.resetCalls)

/-- Sets a fresh bench up. -/
def prepare (setup : Setup) : Action Bench Unit := do
  if setup.deferred then
    Action.report .attemptDeferred
  else
    atMemory MemoryStore.connectFirst
  match setup.connect with
  | some config => Board.connect config
  | none => pure ()
  match setup.index with
  | some index => Action.update (Board.withIndex index)
  | none => pure ()
  let _ids ← postEach .ok (spacedMessages setup.seed)
  resetCalls

/-- Sets a fresh bench up that holds the given messages. -/
def prepareFixture (messages : List Message) : Action Bench Unit := do
  atMemory MemoryStore.connectFirst
  Board.awaitReady (.ofSeconds 1)
  let _ids ← postEach .ok messages
  resetCalls

/-! ## Steps -/

/-- A step of a run. -/
inductive Step where
  | board (request : BoardRequest)
  /-- Posts `count` messages of an author, a second apart. -/
  | postSeries (author : String) (timestamp : Int64) (count : Nat)
  /-- Straight to the store in memory. -/
  | store (request : StoreRequest)
  | cache (request : CacheRequest)
  /-- Lets the board's next call of an operation go wrong. -/
  | mishap (method : StoreMethod) (m : Mishap)
  /-- Reverses the answers of the board's queries and scans, or no longer. -/
  | reverse (on : Bool)

/-- What a step is answered. -/
inductive Reply where
  | done
  | board (reply : BoardReply)
  | posted (ids : List (Except BoardError Int64))
  | store (reply : StoreReply)
  | cache (reply : CacheReply)

/-- One step of a run. -/
def perform : Step → Action Bench Reply
  | .board request => do return .board (← request.serve)
  | .postSeries author timestamp count => do
    return .posted (← postEach (messageAfter author timestamp) (List.range count))
  | .store request => do return .store (← atMemory request.serve)
  | .cache request => do return .cache (← Board.atCache request.serve)
  | .mishap method m => do
    Board.atStore (Action.update (ObservedStore.addMishap method m 0))
    return .done
  | .reverse on => do
    Board.atStore (Action.update (ObservedStore.reverse on))
    return .done

/-- The calls made on the store, first one first, since `before` of them had been made. -/
def callsSince (before : Nat) (b : Bench) : List StoreCall :=
  (b.store.calls.take (b.store.calls.length - before)).reverse

end Bench

end Guestbook
