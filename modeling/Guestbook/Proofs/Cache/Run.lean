import Guestbook.Cache.Request
import Guestbook.Proofs.Action

/-!
# Runs of a cache

A run calls the operations that every cache has, in any order and with any keys, bytes and costs. A
call that goes out of range ends without a reply, and the run goes on with what it left behind.

## Main definitions
- `CacheCall`, `CacheCall.perform`: a call on a cache
- `CacheCall.play`: a run of calls

## Main statements
- `state_perform_get`, `answer_perform_set` and the like: a call is the operation, put into words
- `preserves_perform`: what the operations keep, a call keeps
- `preserves_play`: what every call of a run keeps, the run keeps
-/

namespace Guestbook

open Guestbook.Action (Preserves preserves_pure preserves_state)

/-- A call of an operation that every cache has. -/
inductive CacheCall where
  | get (key : String)
  | set (key : String) (bytes : Bytes) (cost : Cost)
  | clear
  | stats
  deriving DecidableEq, Repr

namespace CacheCall

variable {γ : Type} [Cache γ] {P : γ → Prop}

/-- Makes a call. -/
def perform : CacheCall → Action γ CacheReply
  | get key => do return .bytes (← Cache.get key)
  | set key bytes cost => do return .truth (← Cache.set key bytes cost)
  | clear => do
    Cache.clear
    return .done
  | stats => do return .stats (Cache.stats (← Action.state))

theorem state_perform_get (key : String) (c : γ) :
    ((get key).perform c).state = (Cache.get key c).state :=
  Action.state_bind_pure _ _ c

theorem answer_perform_get (key : String) (c : γ) :
    ((get key).perform c).answer = (Cache.get key c).answer.map CacheReply.bytes :=
  Action.answer_bind_pure _ _ c

theorem state_perform_set (key : String) (bytes : Bytes) (cost : Cost) (c : γ) :
    ((set key bytes cost).perform c).state = (Cache.set key bytes cost c).state :=
  Action.state_bind_pure _ _ c

theorem answer_perform_set (key : String) (bytes : Bytes) (cost : Cost) (c : γ) :
    ((set key bytes cost).perform c).answer
      = (Cache.set key bytes cost c).answer.map CacheReply.truth :=
  Action.answer_bind_pure _ _ c

/-- A run of calls. -/
def play (c : γ) (calls : List CacheCall) : γ :=
  calls.foldl (fun c call => (call.perform c).state) c

/-- What the operations keep, a call keeps. An offer is asked of only as far as the call makes
it. -/
theorem preserves_perform (hget : ∀ key, Preserves P (Cache.get key : Action γ (Option Bytes)))
    (hclear : Preserves P (Cache.clear : Action γ Unit)) {call : CacheCall}
    (hset : ∀ key bytes cost, call = set key bytes cost →
      Preserves P (Cache.set key bytes cost : Action γ Bool)) :
    Preserves P (call.perform : Action γ CacheReply) := by
  cases call with
  | get key => exact (hget key).bind fun _ => preserves_pure _
  | set key bytes cost => exact (hset key bytes cost rfl).bind fun _ => preserves_pure _
  | clear => exact hclear.bind fun _ => preserves_pure _
  | stats => exact preserves_state.bind fun _ => preserves_pure _

/-- What every call of a run keeps, the run keeps. -/
theorem preserves_play {calls : List CacheCall}
    (hcalls : ∀ call ∈ calls, Preserves P (call.perform : Action γ CacheReply)) {c : γ} (hc : P c) :
    P (play c calls) := by
  induction calls generalizing c with
  | nil => exact hc
  | cons call calls ih =>
    apply ih
    · intro other hother
      exact hcalls other (List.mem_cons_of_mem call hother)
    · exact hcalls call List.mem_cons_self c hc

end CacheCall

end Guestbook
