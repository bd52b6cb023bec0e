import Guestbook.Board.Request
import Guestbook.Proofs.Board.Frame
import Guestbook.Proofs.Cache.Lawful
import Guestbook.Proofs.Store.Twins

/-!
# Boards over stores with the same data

Two boards over twin stores may have caches of different kinds with different contents. What
bypasses the caches runs in step on them: a write, because a cache can only be cleared by it, and a
read straight from the store.

## Main definitions
- `Board.Twin`: boards over twin stores with the same index

## Main statements
- `Board.inStep_post`, `Board.inStep_delete`: the writes
- `Board.inStep_all`, `Board.inStep_range`, `Board.inStep_count`: the reads from the store
- `BoardRequest.twin_serve`: every request leaves twins
-/

namespace Guestbook

open Guestbook.Action (InStep)

namespace Board

variable {γ γ' : Type} {heard : StoreMethod → Bool} {α : Type}

/-- The stores are twins, and range queries use the same index. -/
structure Twin (heard : StoreMethod → Bool) (b : Board (ObservedStore MemoryStore) γ)
    (p : Board (ObservedStore MemoryStore) γ') : Prop where
  store : ObservedStore.Twin heard b.store p.store
  index : p.index = b.index

theorem Twin.symm {b : Board (ObservedStore MemoryStore) γ}
    {p : Board (ObservedStore MemoryStore) γ'} (h : Twin heard b p) : Twin heard p b :=
  ⟨h.store.symm, h.index.symm⟩

/-- What runs in step on the stores runs in step on the boards. -/
theorem inStep_atStore {a a' : Action (ObservedStore MemoryStore) α}
    (ha : InStep (ObservedStore.Twin heard) a a') :
    InStep (Twin heard) (atStore a : Action (Board _ γ) α) (atStore a' : Action (Board _ γ') α) :=
  ha.on (fun _ _ h => h.store) fun _ _ _ _ h hstore => ⟨hstore, h.index⟩

variable [Cache γ] [Cache γ']

/-! ## Writes -/

section Writes

variable [LawfulCache γ] [LawfulCache γ']
  (hwrites : ∀ method, StoreMethod.writes method = true → heard method = true)

/-- A clear always answers and does not touch the store. -/
theorem inStep_clear :
    InStep (Twin heard) (atCache Cache.clear : Action (Board _ γ) Unit)
      (atCache Cache.clear : Action (Board _ γ') Unit) := by
  intro b p h
  -- The caches may be of different kinds, but the clear of either answers.
  obtain ⟨_, hanswer, -⟩ := (LawfulCache.satisfies_clear b.cache).answers fun _ _ => id
  obtain ⟨_, hanswer', -⟩ := (LawfulCache.satisfies_clear p.cache).answers fun _ _ => id
  exact ⟨hanswer.trans hanswer'.symm, h.store, h.index⟩

include hwrites

theorem inStep_post (m : Message) :
    InStep (Twin heard) (post m : Action (Board _ γ) Int64)
      (post m : Action (Board _ γ') Int64) := by
  refine (inStep_atStore (ObservedStore.inStep_increment (hwrites _ rfl) 1)).bind fun id => ?_
  refine (inStep_atStore (ObservedStore.inStep_put (hwrites _ rfl) id _)).attempt.bind
    fun stored => ?_
  refine inStep_clear.bind fun _ => (Action.inStep_orFail stored).bind fun _ => ?_
  exact (Action.inStep_report _).bind fun _ => Action.inStep_pure _

theorem inStep_delete (id : Int64) :
    InStep (Twin heard) (delete id : Action (Board _ γ) Bool)
      (delete id : Action (Board _ γ') Bool) := by
  refine inStep_clear.bind fun _ => ?_
  refine (inStep_atStore (ObservedStore.inStep_delete (hwrites _ rfl) id)).bind fun existed => ?_
  exact (Action.inStep_report _).bind fun _ => Action.inStep_pure _

end Writes

/-! ## Reads in step -/

section Reads

variable (hall : ∀ method, heard method = true)

include hall

omit [Cache γ] [Cache γ']

theorem inStep_all (byTimestamp : Bool) :
    InStep (Twin heard) (all byTimestamp : Action (Board _ γ) (List Message))
      (all byTimestamp : Action (Board _ γ') (List Message)) := by
  refine (inStep_atStore (ObservedStore.inStep_scanAll (hall _))).bind fun records => ?_
  exact (Action.inStep_reporting _).bind fun _ => Action.inStep_pure _

theorem inStep_range (low high : Int64) :
    InStep (Twin heard) (range low high : Action (Board _ γ) (List Message))
      (range low high : Action (Board _ γ') (List Message)) := by
  apply Action.inStep_state
  intro b p h
  rw [h.index]
  have hquery : InStep (Twin heard)
      (atStore (Store.queryByRange b.index low high) : Action (Board _ γ) (List Record))
      (atStore (Store.queryByRange b.index low high) : Action (Board _ γ') (List Record)) :=
    inStep_atStore (ObservedStore.inStep_queryByRange (hall _) b.index low high)
  exact (hquery.bind fun _ => Action.inStep_reporting _) b p h

theorem inStep_count :
    InStep (Twin heard) (count : Action (Board _ γ) Nat) (count : Action (Board _ γ') Nat) :=
  inStep_atStore (ObservedStore.inStep_countAll (hall _))

end Reads

/-! ## Requests -/

omit [Cache γ] [Cache γ'] in
/-- A read on one board leaves the boards twins, unless it may meet a mishap that is heard. -/
theorem readsKeep_twin {b : Board (ObservedStore MemoryStore) γ}
    (hspares : b.store.SparesReads heard) :
    ReadsKeep fun p : Board (ObservedStore MemoryStore) γ' => Twin heard b p :=
  have h : Store.ReadsKeep (ObservedStore.Twin heard b.store) :=
    ObservedStore.readsKeep_twin hspares
  { queryByRange := fun index low high _ hp => ⟨h.queryByRange index low high _ hp.store, hp.index⟩
    scanAll := fun _ hp => ⟨h.scanAll _ hp.store, hp.index⟩
    countAll := fun _ hp => ⟨h.countAll _ hp.store, hp.index⟩
    counter := fun _ hp => ⟨h.counter _ hp.store, hp.index⟩
    awaitReady := fun timeout _ hp => ⟨h.awaitReady timeout _ hp.store, hp.index⟩
    close := fun _ hp => ⟨h.close _ hp.store, hp.index⟩ }

omit [Cache γ] in
theorem looksKeep_twin (b : Board (ObservedStore MemoryStore) γ) :
    LooksKeep fun p : Board (ObservedStore MemoryStore) γ' => Twin heard b p where
  get _ _ hp := ⟨hp.store, hp.index⟩
  set _ _ _ _ hp := ⟨hp.store, hp.index⟩

omit [Cache γ] [Cache γ'] in
/-- What happens to the store from outside happens to both. -/
theorem inStep_outside {a : Action MemoryStore α} (ha : InStep MemoryStore.Twin a a)
    (reply : BoardReply) :
    InStep (Twin heard)
      (do let _ ← atStore (ObservedStore.inside a); return reply : Action (Board _ γ) BoardReply)
      (do let _ ← atStore (ObservedStore.inside a); return reply :
        Action (Board _ γ') BoardReply) :=
  (inStep_atStore (ObservedStore.inStep_inside ha)).bind fun _ => Action.inStep_pure _

end Board

namespace BoardRequest

variable {γ γ' : Type} [Cache γ] [Cache γ'] [LawfulCache γ] [LawfulCache γ']
  {heard : StoreMethod → Bool} {b : Board (ObservedStore MemoryStore) γ}
  {p : Board (ObservedStore MemoryStore) γ'}

/-- Every request leaves twins. Reads may be answered by one cache and not by the other, so they are
taken board by board; writes run in step. -/
theorem twin_serve (hwrites : ∀ method, StoreMethod.writes method = true → heard method = true)
    (hspares : b.store.SparesReads heard) (h : Board.Twin heard b p) (r : BoardRequest) :
    Board.Twin heard (r.serve b).state (r.serve p).state ∧
      (r.reads = false → (r.serve b).answer = (r.serve p).answer) := by
  cases hr : r.reads with
  | true =>
    -- First the second board reads, then the first one, each in a frame that keeps them twins.
    have hp : Board.Twin heard b (r.serve p).state :=
      preserves_serve (Board.readsKeep_twin hspares) (Board.looksKeep_twin b) hr p h
    have hb : Board.Twin heard (r.serve p).state (r.serve b).state :=
      preserves_serve (Board.readsKeep_twin (hspares.of_twin hp.store))
        (Board.looksKeep_twin _) hr b hp.symm
    exact ⟨hb.symm, nofun⟩
  | false =>
    have hstep : InStep (Board.Twin heard) (r.serve : Action (Board _ γ) BoardReply)
        (r.serve : Action (Board _ γ') BoardReply) := by
      cases r with
      | post m => exact (Board.inStep_post hwrites m).bind fun _ => Action.inStep_pure _
      | delete id => exact (Board.inStep_delete hwrites id).bind fun _ => Action.inStep_pure _
      | _ => exact nomatch hr
    obtain ⟨hanswer, hstate⟩ := hstep b p h
    exact ⟨hstate, fun _ => hanswer⟩

end BoardRequest

end Guestbook
