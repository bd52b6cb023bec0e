import Guestbook.Cache.Backend
import Guestbook.Cache.Recording

/-!
# Requests to a cache

Whatever can be asked of a recording cache of either kind, as values, so that a run is a list.

## Main definitions
- `CacheRequest`, `CacheReply`: a request, and what it is answered
- `CacheRequest.serve`: serves one request
-/

namespace Guestbook

/-- A recording cache of either kind. -/
abbrev ObservedCache : Type := RecordingCache CacheBackend

/-- A request to a cache. -/
inductive CacheRequest where
  | get (key : String)
  | set (key : String) (bytes : Bytes) (cost : Cost)
  | clear
  | stats
  /-- The budget of a cost-bounded cache. -/
  | budget
  | size
  | isEmpty
  | contains (key : String)
  /-- Puts bytes without counting. -/
  | insertRaw (key : String) (bytes : Bytes)
  | decline (on : Bool)
  | resetCalls
  deriving DecidableEq, Repr

/-- What a request to a cache is answered. -/
inductive CacheReply where
  | done
  | bytes (found : Option Bytes)
  | truth (b : Bool)
  | count (n : Nat)
  | stats (s : CacheStats)
  | budget (maxCost : Option Cost)
  deriving DecidableEq, Repr

namespace CacheRequest

/-- Serves one request. -/
def serve : CacheRequest → Action ObservedCache CacheReply
  | get key => do return .bytes (← Cache.get key)
  | set key bytes cost => do return .truth (← Cache.set key bytes cost)
  | clear => do
    Cache.clear
    return .done
  | stats => do return .stats (Cache.stats (← Action.state))
  | budget => do return .budget (← Action.state).inner.budget?
  | size => do return .count (← Action.state).inner.keys.length
  | isEmpty => do return .truth (← Action.state).inner.keys.isEmpty
  | contains key => do return .truth ((← Action.state).inner.keys.contains key)
  | insertRaw key bytes => do
    Action.update fun c => { c with inner := c.inner.insertRaw key bytes }
    return .done
  | decline on => do
    Action.update (RecordingCache.decline on)
    return .done
  | resetCalls => do
    Action.update RecordingCache.resetCalls
    return .done

end CacheRequest

end Guestbook
