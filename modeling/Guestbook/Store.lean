import Guestbook.Action
import Guestbook.Record

/-!
# Stores

A store keeps records under ids and a counter that issues ids. Every operation first makes sure of
the connection, so any of them may fail for want of one. The order of the records that a query or a
scan answers is up to the store.
-/

namespace Guestbook

/-- The operations of a store of type `σ`. -/
class Store (σ : Type) where
  /-- Puts a record under a key, instead of one that may be there. -/
  put : Int64 → Record → Action σ Unit
  /-- Deletes the record under a key; answers whether there was one. -/
  delete : Int64 → Action σ Bool
  /-- The records whose bin of the given index lies between two integers, both included. -/
  queryByRange : String → Int64 → Int64 → Action σ (List Record)
  scanAll : Action σ (List Record)
  countAll : Action σ Nat
  /-- The value of the counter. -/
  counter : Action σ Int64
  /-- Adds to the counter; answers its new value. -/
  increment : Int64 → Action σ Int64
  /-- Waits for the first connection. -/
  awaitReady : Duration → Action σ Unit
  isConnected : σ → Bool
  /-- Closes the connection, if there is one. -/
  close : Action σ Unit

end Guestbook
