import Guestbook.Action
import Guestbook.Text.Bytes

/-!
# Caches

A cache holds encoded reads under keys. A miss is never a failure, and a cache may decline an entry.

## Main definitions
- `CacheStats`: how a cache has been used, with its hit rate
- `Cache`: the operations of a cache
-/

namespace Guestbook

/-- How a cache has been used and what it holds. -/
structure CacheStats where
  hits : Nat := 0
  misses : Nat := 0
  entryCount : Nat := 0
  /-- Total cost of the entries held. -/
  cost : Nat := 0
  /-- Entries declined. -/
  rejections : Nat := 0
  /-- Entries dropped to make room. -/
  evictions : Nat := 0
  clears : Nat := 0
  deriving DecidableEq, Repr

namespace CacheStats

/-- The share of look-ups that hit, zero before the first one. The number of look-ups is a word. -/
def hitRate (s : CacheStats) : Except Fault Float :=
  let total := s.hits + s.misses
  if UInt64.size ≤ total then .error .addOverflow
  else if total = 0 then .ok 0.0
  else .ok (s.hits.toUInt64.toFloat / total.toUInt64.toFloat)

end CacheStats

/-- The operations of a cache of type `γ`. -/
class Cache (γ : Type) where
  /-- The bytes under a key. -/
  get : String → Action γ (Option Bytes)
  /-- Offers bytes at a cost; answers whether the cache took them. -/
  set : String → Bytes → Cost → Action γ Bool
  /-- Drops every entry. -/
  clear : Action γ Unit
  stats : γ → CacheStats

end Guestbook
