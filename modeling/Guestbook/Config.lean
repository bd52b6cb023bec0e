import Guestbook.Word
import Guestbook.Text.Blank
import Guestbook.Error

/-!
# Settings

Settings of the store and of the cache, read from named variables. A missing variable, or one that
holds no number where a number is wanted, leaves the default.

## Main definitions
- `StoreConfig`, `StoreConfig.ofVars`, `StoreConfig.validate`
- `CacheConfig`, `CacheConfig.ofVars`, `CacheConfig.validate`
-/

namespace Guestbook

/-- How to reach the message store and how it is laid out. -/
structure StoreConfig where
  /-- Seed hosts, `host:port`, separated by commas. -/
  hosts : String := "127.0.0.1:3000"
  namespaceName : String := "visitboard"
  /-- Set that holds the message records. -/
  setName : String := "messages"
  /-- Set that holds the counter record. -/
  counterSet : String := "counters"
  counterKey : String := "message-counter"
  /-- Index used by range queries. -/
  indexName : String := "id"
  /-- How long a start waits for the first connection. -/
  readyTimeout : Duration := .ofSeconds 5
  deriving DecidableEq, Repr

namespace StoreConfig

/-- Settings from a look-up of variables. -/
def ofVars (lookup : String → Option String) : StoreConfig :=
  let defaults : StoreConfig := {}
  { hosts := (lookup "VISITBOARD_STORE_HOSTS").getD defaults.hosts
    namespaceName := (lookup "VISITBOARD_STORE_NAMESPACE").getD defaults.namespaceName
    setName := (lookup "VISITBOARD_STORE_SET").getD defaults.setName
    counterSet := (lookup "VISITBOARD_COUNTER_SET").getD defaults.counterSet
    counterKey := (lookup "VISITBOARD_COUNTER_KEY").getD defaults.counterKey
    indexName := (lookup "VISITBOARD_INDEX_NAME").getD defaults.indexName
    readyTimeout :=
      -- A value that is no number is ignored.
      match (lookup "VISITBOARD_READY_TIMEOUT_MS").bind Text.Decimal.readWord? with
      | some n => .ofMillis n.toNat
      | none => defaults.readyTimeout }

/-- The textual settings in the order in which they are checked. -/
def fields (c : StoreConfig) : List (String × String) :=
  [("hosts", c.hosts), ("namespace", c.namespaceName), ("set_name", c.setName),
    ("counter_set", c.counterSet), ("counter_key", c.counterKey), ("index_name", c.indexName)]

/-- Refuses the first blank setting. -/
def validate (c : StoreConfig) : Except BoardError Unit :=
  match c.fields.find? fun field => Text.isBlankText field.2 with
  | some (name, value) => .error (.invalidSetting name value "must not be empty")
  | none => .ok ()

end StoreConfig

/-- What the cache may hold. -/
structure CacheConfig where
  /-- Greatest total cost; an entry costs its length in bytes. -/
  maxCost : Cost := 8 * 1024 * 1024
  deriving DecidableEq, Repr

namespace CacheConfig

/-- Settings from a look-up of variables. -/
def ofVars (lookup : String → Option String) : CacheConfig :=
  match (lookup "VISITBOARD_CACHE_MAX_COST").bind Text.Decimal.readWord? with
  | some n => { maxCost := n }
  | none => {}

/-- Refuses a cache that can hold nothing. -/
def validate (c : CacheConfig) : Except BoardError Unit :=
  if c.maxCost = 0 then .error (.invalidSetting "max_cost" "0" "must be positive")
  else .ok ()

end CacheConfig

end Guestbook
