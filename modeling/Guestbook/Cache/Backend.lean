import Guestbook.Cache.Lru
import Guestbook.Cache.Map

/-!
# Either kind of cache

A board is given a map cache or a cost-bounded cache; both are one type here.
-/

namespace Guestbook

/-- A cache of either kind. -/
inductive CacheBackend where
  | map (c : MapCache)
  | lru (c : LruCache)

namespace CacheBackend

/-- A cost-bounded cache for a given budget, a map cache for none. -/
def ofBudget (budget : Option Cost) : Except BoardError CacheBackend :=
  match budget with
  | none => .ok (.map {})
  | some maxCost =>
    match LruCache.ofConfig { maxCost } with
    | .ok c => .ok (.lru c)
    | .error e => .error e

/-- Runs the action that belongs to the kind of a cache. -/
def dispatch {α : Type} (onMap : Action MapCache α) (onLru : Action LruCache α) :
    Action CacheBackend α
  | .map c => let o := onMap c; ⟨o.answer, .map o.state, o.events⟩
  | .lru c => let o := onLru c; ⟨o.answer, .lru o.state, o.events⟩

instance : Cache CacheBackend where
  get key := dispatch (Cache.get key) (Cache.get key)
  set key bytes cost := dispatch (Cache.set key bytes cost) (Cache.set key bytes cost)
  clear := dispatch Cache.clear Cache.clear
  stats
    | .map c => Cache.stats c
    | .lru c => Cache.stats c

/-- The budget of a cost-bounded cache. -/
def budget? : CacheBackend → Option Cost
  | .map _ => none
  | .lru c => some c.maxCost

/-- The keys held. -/
def keys : CacheBackend → List String
  | .map c => c.entries.entries.map (·.1)
  | .lru c => c.entries.map (·.key)

/-- Puts bytes under a key of a map cache without counting; a cost-bounded cache takes no raw
entries. -/
def insertRaw (key : String) (bytes : Bytes) : CacheBackend → CacheBackend
  | .map c => .map (c.insertRaw key bytes)
  | .lru c => .lru c

end CacheBackend

end Guestbook
