import Guestbook.Store.Observed
import Guestbook.Proofs.Store.Memory

/-!
# Calls on an observed store in memory

A call on an observed store is refused by a mishap, by a store that cannot be reached or by one that
fails; then it changes no record and not the counter. Otherwise it does what the store inside does,
and the records of an answer come in the order of the arrangement.

## Main definitions
- `Stop.SparesCache`: a stop that is no failure of the cache
- `ObservedStore.Refuses`: why a call is not served
- `ObservedStore.Serves`: what is enough for a call to be served
- `ObservedStore.Became`, `ObservedStore.Untouched`: the store after a call that was served, and
  after one that was not

## Main statements
- `satisfies_call`: a call from the operation inside
- `Refuses.not_serves`: a store that serves an operation refuses no call of it
- `Refuses.sparesCache`: a refusal is no failure of the cache
-/

namespace Guestbook

open Outcome (Satisfies)

/-- A stop that is no failure of the cache. -/
def Stop.SparesCache (why : Stop) : Prop := ∀ cause, why = .error cause → cause.area ≠ .cache

theorem Stop.SparesCache.of_area {cause : BoardError} (h : cause.area ≠ .cache) :
    (Stop.error cause).SparesCache := by
  rintro _ ⟨⟩
  exact h

theorem Stop.SparesCache.fault (cause : Fault) : (Stop.fault cause).SparesCache :=
  fun _ h => nomatch h

theorem StoreCall.area_refusal (call : StoreCall) (reason : String) :
    (call.refusal reason).area = .store := by
  cases call <;> rfl

namespace ObservedStore

variable {s t : ObservedStore MemoryStore} {α : Type}

/-! ## Refusals -/

/-- Why a call is not served. -/
inductive Refuses (s : ObservedStore MemoryStore) (call : StoreCall) : Stop → Prop where
  | mishap {m : Mishap} (h : s.mishapFor? call.method = some m) :
      Refuses s call (.error (call.failure m))
  | unreached {why : Stop} (h : s.inner.Unreached why) : Refuses s call why
  | failing {why : Stop} (h : s.inner.Failing (fun reason => call.refusal reason) why) :
      Refuses s call why

/-- The store can be reached, works, and has no mishap to come for an operation. -/
structure Serves (s : ObservedStore MemoryStore) (method : StoreMethod) : Prop where
  reachable : s.inner.reachable = true
  working : s.inner.failing = false
  spared : ∀ m, (method, some m) ∉ s.mishaps

/-- A store that can be reached and works serves every operation when no mishap is to come. -/
theorem Serves.of_no_mishaps (hreachable : s.inner.reachable = true)
    (hworking : s.inner.failing = false) (hmishaps : s.mishaps = []) (method : StoreMethod) :
    Serves s method :=
  ⟨hreachable, hworking, fun _ => hmishaps ▸ List.not_mem_nil⟩

/-- The mishap of the next call is one of those to come. -/
theorem mem_mishaps_of_mishapFor? {method : StoreMethod} {m : Mishap}
    (h : s.mishapFor? method = some m) : (method, some m) ∈ s.mishaps := by
  obtain ⟨⟨other, found⟩, hfind, hm⟩ := Option.bind_eq_some_iff.mp h
  have hfound := List.find?_some hfind
  obtain rfl : other = method := of_decide_eq_true hfound
  obtain rfl : found = some m := hm
  exact List.mem_of_find?_eq_some hfind

/-- A store that serves an operation refuses no call of it. -/
theorem Refuses.not_serves {call : StoreCall} {why : Stop} (h : Refuses s call why) :
    ¬ Serves s call.method := by
  intro hserves
  cases h with
  | mishap h => exact hserves.spared _ (mem_mishaps_of_mishapFor? h)
  | unreached h => exact absurd (hserves.reachable.symm.trans h.1) (by simp)
  | failing h => exact absurd (hserves.working.symm.trans h.1) (by simp)

/-- A refusal is no failure of the cache, but one of the connection or the store. -/
theorem Refuses.sparesCache {call : StoreCall} {why : Stop} (h : Refuses s call why) :
    why.SparesCache := by
  cases h with
  | @mishap m h =>
    cases m with
    | refused reason => exact .of_area (by rw [StoreCall.failure, call.area_refusal]; decide)
    | notConnected => exact .of_area nofun
    | alreadyConnecting => exact .of_area nofun
  | unreached h => exact h.2 ▸ .of_area (by decide)
  | failing h => exact h.2 ▸ .of_area (by rw [call.area_refusal]; decide)

/-- A refusal is no search without end. -/
theorem Refuses.ne_endless {call : StoreCall} {why : Stop} (h : Refuses s call why) :
    why ≠ .endless := by
  cases h with
  | mishap h => exact nofun
  | unreached h => exact h.2 ▸ nofun
  | failing h => exact h.2 ▸ nofun

/-! ## Calls -/

@[simp] theorem inner_noted {σ : Type} (call : StoreCall) (s : ObservedStore σ) :
    (s.noted call).inner = s.inner := rfl

/-- `t` is `s` after calls that were served and left `inner` inside, but for what its gate holds. Of
what is settled about later calls there is nothing new. -/
structure Became (s : ObservedStore MemoryStore) (inner : MemoryStore)
    (t : ObservedStore MemoryStore) : Prop where
  inner : inner.Passed t.inner
  mishaps : t.mishaps.Sublist s.mishaps
  arrange : t.arrange = s.arrange

/-- `t` is `s` after a call that was not served: what it holds is the same. -/
structure Untouched (s t : ObservedStore MemoryStore) : Prop where
  inner : s.inner.Passed t.inner
  arrange : t.arrange = s.arrange

/-- What is served before a read is served after it. -/
theorem Became.serves {method : StoreMethod} (h : Became s s.inner t) (hserves : Serves s method) :
    Serves t method := by
  obtain ⟨gate, -, hinner⟩ := h.inner
  constructor
  · rw [hinner]
    exact hserves.reachable
  · rw [hinner]
    exact hserves.working
  · exact fun m hm => hserves.spared m (h.mishaps.subset hm)

/-- A call that meets no mishap is the operation inside. -/
theorem observe_of_spared {σ α : Type} {s : ObservedStore σ} {call : StoreCall} {a : Action σ α}
    (h : s.mishapFor? call.method = none) :
    observe call a s = inside a (s.noted call) := by
  unfold observe
  rw [h]

/-- A call on the store from the operation inside. -/
theorem satisfies_call {call : StoreCall} {a : Action MemoryStore α}
    {Q : α → MemoryStore → Prop} {C D : Stop → Prop} (hidle : s.inner.gate.connecting = false)
    (h : (a s.inner).Satisfies Q fun why inner => C why ∧ s.inner.Passed inner)
    (hrefused : ∀ why, Refuses s call why → D why) (hcause : ∀ why, C why → D why) :
    (observe call a s).Satisfies
      (fun x t => Q x t.inner ∧ t.mishaps.Sublist s.mishaps ∧ t.arrange = s.arrange)
      fun why t => D why ∧ Untouched s t := by
  unfold observe
  split
  · -- A mishap takes the place of the call, and the store inside does not see it.
    next m hm => exact ⟨hrefused _ (.mishap hm), .refl hidle, rfl⟩
  · unfold inside
    rw [Action.satisfies_on]
    apply h.imp
    · intro x inner hx
      exact ⟨hx, List.eraseP_sublist, rfl⟩
    · intro why inner hpost
      obtain ⟨hwhy, hinner⟩ := hpost
      exact ⟨hcause why hwhy, hinner, rfl⟩

/-- A call from an operation inside that answers `Q` and leaves `inner`. -/
theorem satisfies_call_became {call : StoreCall} {a : Action MemoryStore α} {inner : MemoryStore}
    {R : Prop} {Q : α → Prop} {C D : Stop → Prop} (hidle : s.inner.gate.connecting = false)
    (h : (a s.inner).Satisfies (fun x u => (R ∧ Q x) ∧ inner.Passed u)
      fun why u => C why ∧ s.inner.Passed u)
    (hrefused : ∀ why, Refuses s call why → D why) (hcause : ∀ why, C why → D why) :
    (observe call a s).Satisfies (fun x t => Q x ∧ Became s inner t)
      fun why t => D why ∧ Untouched s t := by
  refine (satisfies_call hidle h hrefused hcause).imp ?_ fun _ _ => id
  rintro x t ⟨⟨⟨-, hx⟩, hinner⟩, hmishaps, harrange⟩
  exact ⟨hx, hinner, hmishaps, harrange⟩

theorem satisfies_put (hidle : s.inner.gate.connecting = false) (key : Int64) (r : Record) :
    (Store.put key r s).Satisfies
      (fun _ t => Became s (s.inner.insertRaw key r) t)
      fun why t => Refuses s (.put key) why ∧ Untouched s t := by
  refine (satisfies_call hidle (MemoryStore.satisfies_put hidle key r) (fun _ => id)
    fun _ => .unreached).imp ?_ fun _ _ => id
  rintro _ t ⟨⟨-, hinner⟩, hmishaps, harrange⟩
  exact ⟨hinner, hmishaps, harrange⟩

theorem satisfies_delete (hidle : s.inner.gate.connecting = false) (key : Int64) :
    (Store.delete key s).Satisfies
      (fun existed t => existed = s.inner.records.contains key ∧
        Became s { s.inner with records := s.inner.records.erase key } t)
      fun why t => Refuses s (.delete key) why ∧ Untouched s t :=
  satisfies_call_became hidle (MemoryStore.satisfies_delete hidle key) (fun _ => id)
    fun _ => .unreached

/-- What a store refuses is refused by the call. -/
private theorem refuses_of_refused {call : StoreCall} {cause : String → BoardError} {why : Stop}
    (hcause : cause = call.refusal) (h : s.inner.Refused cause why) : Refuses s call why := by
  subst hcause
  rcases h with hunreached | hfailing
  · exact .unreached hunreached
  · exact .failing hfailing

/-- The records of an answer are arranged by the store as it is after the call. -/
theorem satisfies_arranged {call : StoreCall} {a : Action MemoryStore (List Record)}
    {records : List Record}
    (h : (observe call a s).Satisfies
      (fun answer t => answer = records ∧ Became s s.inner t)
      fun why t => Refuses s call why ∧ Untouched s t) :
    (arranged (observe call a) s).Satisfies
      (fun answer t => (∃ n, answer = s.arrange n records) ∧ Became s s.inner t)
      fun why t => Refuses s call why ∧ Untouched s t := by
  unfold arranged
  rw [Action.satisfies_bind]
  refine h.imp ?_ fun _ _ => id
  rintro answer t ⟨rfl, ht⟩
  -- The arrangement is a part of the store that no call changes.
  rw [Action.satisfies_bind, Action.satisfies_state, Action.satisfies_pure, ht.arrange]
  exact ⟨⟨_, rfl⟩, ht⟩

/-- A range query over the index of ids answers the records in the range. -/
theorem satisfies_queryByRange (hidle : s.inner.gate.connecting = false) (low high : Int64) :
    (Store.queryByRange Bin.id low high s).Satisfies
      (fun answer t => (∃ n, answer = s.arrange n
        (s.inner.records.values.filter (MemoryStore.inRange Bin.id low high))) ∧
          Became s s.inner t)
      fun why t => Refuses s (.queryByRange Bin.id low high) why ∧ Untouched s t := by
  apply satisfies_arranged
  exact satisfies_call_became hidle (MemoryStore.satisfies_queryByRange hidle low high)
    (fun _ => id) fun _ => refuses_of_refused rfl

theorem satisfies_scanAll (hidle : s.inner.gate.connecting = false) :
    (Store.scanAll s).Satisfies
      (fun answer t => (∃ n, answer = s.arrange n s.inner.records.values) ∧ Became s s.inner t)
      fun why t => Refuses s .scanAll why ∧ Untouched s t := by
  apply satisfies_arranged
  exact satisfies_call_became hidle (MemoryStore.satisfies_scanAll hidle)
    (fun _ => id) fun _ => refuses_of_refused rfl

theorem satisfies_countAll (hidle : s.inner.gate.connecting = false) :
    (Store.countAll s).Satisfies
      (fun n t => n = s.inner.records.size ∧ Became s s.inner t)
      fun why t => Refuses s .countAll why ∧ Untouched s t :=
  satisfies_call_became hidle (MemoryStore.satisfies_countAll hidle) (fun _ => id)
    fun _ => refuses_of_refused rfl

/-! ## The counter -/

theorem satisfies_counter {n : Int} (hidle : s.inner.gate.connecting = false)
    (hcounts : s.inner.Counts n) :
    (Store.counter s).Satisfies (fun w t => w.toInt = n ∧ Became s s.inner t)
      fun why t => (Refuses s .counter why ∨ s.inner.counterRecord = none ∧
        why = .error (.counterUnavailable "counter record not found")) ∧ Untouched s t :=
  satisfies_call_became hidle (MemoryStore.satisfies_counter hidle hcounts) (fun _ => .inl)
    fun _ hcause => hcause.imp_left .unreached

theorem satisfies_increment {n : Int} (hidle : s.inner.gate.connecting = false)
    (hcounts : s.inner.Counts n) (amount : Int64) :
    (Store.increment amount s).Satisfies
      (fun w t => (w.toInt = n + amount.toInt ∧ t.inner.Counts (n + amount.toInt)) ∧
        ∃ r, Became s { s.inner with counterRecord := some r } t)
      fun why t => (Refuses s (.increment amount) why ∨ why = .fault .addOverflow ∧
        ¬ (Word.least ≤ n + amount.toInt ∧ n + amount.toInt ≤ Word.greatest)) ∧
          Untouched s t := by
  refine (satisfies_call hidle (MemoryStore.satisfies_increment hidle hcounts amount)
    (fun _ => .inl) fun _ hcause => hcause.imp_left .unreached).imp ?_ fun _ _ => id
  rintro w t ⟨⟨⟨-, hw⟩, hcounts', r, hinner⟩, hmishaps, harrange⟩
  exact ⟨⟨hw, hcounts'⟩, r, hinner, hmishaps, harrange⟩

end ObservedStore

end Guestbook
