import Guestbook.Proofs.InStep
import Guestbook.Proofs.Store.Frame

/-!
# Stores with the same data

Two stores in memory are twins if they have the same data and the same switches and neither has an
attempt to connect in flight. What their gates hold may differ, because one may have been called
when the other was not. Whether an operation passes the gate depends on the switch alone, so the
same operation runs in step on twins.

## Main definitions
- `MemoryStore.Twin`: stores with the same data and the same switches
- `ObservedStore.Twin`: stores whose calls meet the same mishaps, as far as some operations go

## Main statements
- `MemoryStore.inStep_connected`: twins let the same operations pass
- `ObservedStore.inStep_put`, `inStep_increment`, ...: every operation runs in step on twins
- `ObservedStore.readsKeep_twin`: a read on one of them leaves them twins
-/

namespace Guestbook

open Guestbook.Action (InStep)

namespace MemoryStore

variable {s t u : MemoryStore} {α : Type}

/-- The stores have the same data and the same switches, and no attempt to connect is in flight. -/
structure Twin (s t : MemoryStore) : Prop where
  data : s.SameData t
  reachable : t.reachable = s.reachable
  failing : t.failing = s.failing
  idle : s.gate.connecting = false
  idle' : t.gate.connecting = false

namespace Twin

theorem refl (hidle : s.gate.connecting = false) : Twin s s := ⟨.refl s, rfl, rfl, hidle, hidle⟩

theorem symm (h : Twin s t) : Twin t s :=
  ⟨⟨h.data.records.symm, h.data.counter.symm⟩, h.reachable.symm, h.failing.symm, h.idle', h.idle⟩

/-- What the gate holds makes no difference. -/
theorem passed (h : Twin s t) (hu : Passed t u) : Twin s u := by
  obtain ⟨gate, hgate, rfl⟩ := hu
  exact ⟨⟨h.data.records, h.data.counter⟩, h.reachable, h.failing, h.idle, hgate⟩

end Twin

/-- The gate lets an operation pass on one of two twins if it does on the other. -/
theorem inStep_connected {a a' : Action MemoryStore α} (ha : InStep Twin a a') :
    InStep Twin (connected a) (connected a') := by
  intro s t h
  cases hreachable : s.reachable with
  | true =>
    -- Each passes its own gate, and what the two gates hold then may differ.
    obtain ⟨gate, hgate, hanswer, hstate⟩ := connected_of_reachable a h.idle hreachable
    obtain ⟨gate', hgate', hanswer', hstate'⟩ :=
      connected_of_reachable a' h.idle' (h.reachable.trans hreachable)
    have hinside : Twin { s with gate } { t with gate := gate' } :=
      ((h.symm.passed ⟨gate, hgate, rfl⟩).symm).passed ⟨gate', hgate', rfl⟩
    rw [hanswer, hstate, hanswer', hstate']
    exact ha _ _ hinside
  | false =>
    -- Neither passes, and both stay as they are.
    have hstop := connected_of_unreachable a h.idle hreachable
    have hstop' := connected_of_unreachable a' h.idle' (h.reachable.trans hreachable)
    rw [hstop.1, hstop.2, hstop'.1, hstop'.2]
    exact ⟨rfl, h⟩

/-! ## Operations -/

theorem inStep_put (key : Int64) (r : Record) : InStep Twin (put key r) (put key r) := by
  apply inStep_connected
  intro s t h
  refine ⟨rfl, ⟨?_, h.data.counter⟩, h.reachable, h.failing, h.idle, h.idle'⟩
  show t.records.insert key r = s.records.insert key r
  rw [h.data.records]

theorem inStep_delete (key : Int64) : InStep Twin (delete key) (delete key) := by
  apply inStep_connected
  intro s t h
  -- Whether there is a record to delete is a matter of the data.
  have hsame : t.records.contains key = s.records.contains key := by rw [h.data.records]
  have herase : t.records.erase key = s.records.erase key := by rw [h.data.records]
  cases hcontains : s.records.contains key with
  | true =>
    simp only [hsame, hcontains, if_true, true_and]
    exact ⟨⟨herase, h.data.counter⟩, h.reachable, h.failing, h.idle, h.idle'⟩
  | false =>
    simp only [hsame, hcontains, Bool.false_eq_true, if_false, true_and]
    exact h

theorem inStep_requireWorking (cause : String → BoardError) :
    InStep Twin (requireWorking cause) (requireWorking cause) := by
  intro s t h
  unfold requireWorking
  rw [h.failing]
  split <;> exact ⟨rfl, h⟩

/-- What is read off the records is the same for both. -/
theorem inStep_records (f : SortedMap Int64 Record → α) :
    InStep Twin (do return f (← Action.state).records) (do return f (← Action.state).records) := by
  apply Action.inStep_state
  intro s t h
  rw [h.data.records]
  exact ⟨rfl, h⟩

theorem inStep_queryByRange (index : String) (low high : Int64) :
    InStep Twin (queryByRange index low high) (queryByRange index low high) := by
  apply inStep_connected
  refine (inStep_requireWorking _).bind fun _ => ?_
  dsimp only
  split
  · -- There is no other index than the one over ids.
    exact Action.inStep_fail _
  · exact inStep_records fun records => records.values.filter (inRange index low high)

theorem inStep_scanAll : InStep Twin scanAll scanAll :=
  inStep_connected <| (inStep_requireWorking _).bind fun _ => inStep_records SortedMap.values

theorem inStep_countAll : InStep Twin countAll countAll :=
  inStep_connected <| (inStep_requireWorking _).bind fun _ => inStep_records SortedMap.size

theorem inStep_counter : InStep Twin counter counter := by
  apply inStep_connected
  apply Action.inStep_state
  intro s t h
  rw [h.data.counter]
  cases s.counterRecord with
  | none => exact ⟨rfl, h⟩
  | some r => exact Action.inStep_orFail _ s t h

theorem inStep_openCounter : InStep Twin openCounter openCounter := by
  intro s t h
  unfold openCounter
  rw [h.data.counter]
  exact ⟨rfl, ⟨h.data.records, rfl⟩, h.reachable, h.failing, h.idle, h.idle'⟩

theorem inStep_increment (amount : Int64) : InStep Twin (increment amount) (increment amount) := by
  apply inStep_connected
  refine inStep_openCounter.bind fun r => ?_
  refine (Action.inStep_orFail _).bind fun current => ?_
  refine (Action.inStep_orFault _).bind fun next => ?_
  exact fun s t h =>
    ⟨rfl, ⟨h.data.records, rfl⟩, h.reachable, h.failing, h.idle, h.idle'⟩

/-! ## Changes from outside -/

theorem inStep_connectFirst : InStep Twin connectFirst connectFirst := by
  intro s t h
  -- The attempt answers on both, whatever comes of it.
  obtain ⟨_, hanswer, hs⟩ := (satisfies_connectFirst h.idle).answers fun _ _ => id
  obtain ⟨_, hanswer', ht⟩ := (satisfies_connectFirst h.idle').answers fun _ _ => id
  exact ⟨hanswer.trans hanswer'.symm, ((h.symm.passed hs).symm).passed ht⟩

theorem inStep_setReachable (on : Bool) :
    InStep Twin (Action.update (setReachable on)) (Action.update (setReachable on)) :=
  fun _ _ h => ⟨rfl, ⟨h.data.records, h.data.counter⟩, rfl, h.failing, h.idle, h.idle'⟩

theorem inStep_setFailing (on : Bool) :
    InStep Twin (Action.update (setFailing on)) (Action.update (setFailing on)) :=
  fun _ _ h => ⟨rfl, ⟨h.data.records, h.data.counter⟩, h.reachable, rfl, h.idle, h.idle'⟩

/-- A read on one of two twins changes at most what its gate holds. -/
theorem readsKeep_twin : Store.ReadsKeep (Twin s) := by
  apply readsKeep
  · intro t h
    apply h.passed
    exact ((satisfies_connection h.idle').imp (fun _ _ h => h.2) fun _ _ h => h.2).state
  · intro t h
    apply h.passed
    exact ((satisfies_close h.idle').imp (fun _ _ h => h) fun _ _ h => h.elim).state

end MemoryStore

/-! ## Observed stores -/

namespace ObservedStore

variable {heard : StoreMethod → Bool} {s t : ObservedStore MemoryStore} {α : Type}

/-- The stores inside are twins, the same mishaps wait for the operations that are `heard`, and the
records of answers come as they are. -/
structure Twin (heard : StoreMethod → Bool) (s t : ObservedStore MemoryStore) : Prop where
  inner : s.inner.Twin t.inner
  mishaps : (t.mishaps.filter fun m => heard m.1) = s.mishaps.filter fun m => heard m.1
  inOrder : ∀ n records, s.arrange n records = records
  inOrder' : ∀ n records, t.arrange n records = records

namespace Twin

theorem refl (hidle : s.inner.gate.connecting = false)
    (hinOrder : ∀ n records, s.arrange n records = records) : Twin heard s s :=
  ⟨.refl hidle, rfl, hinOrder, hinOrder⟩

theorem symm (h : Twin heard s t) : Twin heard t s :=
  ⟨h.inner.symm, h.mishaps.symm, h.inOrder', h.inOrder⟩

end Twin

/-! ### Mishaps -/

/-- What becomes of the next call of an operation stands in the list of those that are heard. -/
theorem mishapFor?_filter {method : StoreMethod} (hheard : heard method = true)
    (mishaps : List (StoreMethod × Option Mishap)) :
    (mishaps.find? fun m => m.1 = method)
      = (mishaps.filter fun m => heard m.1).find? fun m => m.1 = method := by
  rw [List.find?_filter]
  congr 1
  funext m
  by_cases hm : m.1 = method <;> simp [hm, hheard]

theorem eraseP_filter {method : StoreMethod} (hheard : heard method = true)
    (mishaps : List (StoreMethod × Option Mishap)) :
    ((mishaps.eraseP fun m => m.1 = method).filter fun m => heard m.1)
      = (mishaps.filter fun m => heard m.1).eraseP fun m => m.1 = method := by
  rw [List.eraseP_filter]
  congr 2
  funext m
  by_cases hm : m.1 = method <;> simp [hm, hheard]

/-- What becomes of an operation that is not heard does not stand in that list. -/
theorem filter_eraseP_of_unheard {method : StoreMethod} (hunheard : heard method = false)
    (mishaps : List (StoreMethod × Option Mishap)) :
    ((mishaps.eraseP fun m => m.1 = method).filter fun m => heard m.1)
      = mishaps.filter fun m => heard m.1 := by
  induction mishaps with
  | nil => rfl
  | cons m rest ih =>
    by_cases hm : m.1 = method
    · simp [hm, hunheard]
    · simp [hm, List.filter_cons, ih]

theorem Twin.mishapFor? (h : Twin heard s t) {method : StoreMethod} (hheard : heard method = true) :
    t.mishapFor? method = s.mishapFor? method := by
  rw [ObservedStore.mishapFor?, ObservedStore.mishapFor?, mishapFor?_filter hheard t.mishaps,
    mishapFor?_filter hheard s.mishaps, h.mishaps]

/-! ### Calls -/

/-- A call that is heard meets the same mishap on both, or reaches both stores inside. -/
theorem inStep_observe {call : StoreCall} (hheard : heard call.method = true)
    {a a' : Action MemoryStore α} (ha : InStep MemoryStore.Twin a a') :
    InStep (Twin heard) (observe call a) (observe call a') := by
  intro s t h
  -- Both stores go on to the same next call.
  have hmishaps : ((t.mishaps.eraseP fun m => m.1 = call.method).filter fun m => heard m.1)
      = (s.mishaps.eraseP fun m => m.1 = call.method).filter fun m => heard m.1 := by
    rw [eraseP_filter hheard, eraseP_filter hheard, h.mishaps]
  unfold observe
  rw [h.mishapFor? hheard]
  split
  · exact ⟨rfl, h.inner, hmishaps, h.inOrder, h.inOrder'⟩
  · obtain ⟨hanswer, hstate⟩ := ha s.inner t.inner h.inner
    exact ⟨hanswer, hstate, hmishaps, h.inOrder, h.inOrder'⟩

/-- An action inside does not meet mishaps. -/
theorem inStep_inside {a a' : Action MemoryStore α} (ha : InStep MemoryStore.Twin a a') :
    InStep (Twin heard) (inside a) (inside a') :=
  ha.on (fun _ _ h => h.inner) fun _ _ _ _ h hinner =>
    ⟨hinner, h.mishaps, h.inOrder, h.inOrder'⟩

theorem inStep_addMishap (method : StoreMethod) (m : Mishap) (passed : Nat) :
    InStep (Twin heard) (Action.update (addMishap method m passed))
      (Action.update (addMishap method m passed)) := by
  intro s t h
  refine ⟨rfl, h.inner, ?_, h.inOrder, h.inOrder'⟩
  show (t.mishaps ++ _).filter _ = (s.mishaps ++ _).filter _
  rw [List.filter_append, h.mishaps, ← List.filter_append]

/-- A mishap that is added settles calls of its own operation only. -/
theorem mem_addMishap {method : StoreMethod} {m : Mishap} {passed : Nat}
    {turn : StoreMethod × Option Mishap} (h : turn ∈ (addMishap method m passed s).mishaps) :
    turn ∈ s.mishaps ∨ turn.1 = method := by
  rcases List.mem_append.mp h with hold | hnew
  · exact .inl hold
  · rcases List.mem_append.mp hnew with hpassed | hmishap
    · exact .inr (congrArg Prod.fst (List.eq_of_mem_replicate hpassed))
    · exact .inr (congrArg Prod.fst (List.mem_singleton.mp hmishap))

/-- Records come in the order of the stores inside, however many calls were made. -/
theorem inStep_arranged {a a' : Action (ObservedStore MemoryStore) (List Record)}
    (ha : InStep (Twin heard) a a') : InStep (Twin heard) (arranged a) (arranged a') := by
  refine ha.bind fun records => ?_
  apply Action.inStep_state
  intro s t h
  show (Except.ok _ : Except Stop _) = _ ∧ _
  rw [h.inOrder, h.inOrder']
  exact ⟨rfl, h⟩

theorem inStep_put (hheard : heard .put = true) (key : Int64) (r : Record) :
    InStep (Twin heard) (Store.put key r) (Store.put key r) :=
  inStep_observe hheard (MemoryStore.inStep_put key r)

theorem inStep_delete (hheard : heard .delete = true) (key : Int64) :
    InStep (Twin heard) (Store.delete key) (Store.delete key) :=
  inStep_observe hheard (MemoryStore.inStep_delete key)

theorem inStep_increment (hheard : heard .increment = true) (amount : Int64) :
    InStep (Twin heard) (Store.increment amount) (Store.increment amount) :=
  inStep_observe hheard (MemoryStore.inStep_increment amount)

theorem inStep_queryByRange (hheard : heard .queryByRange = true) (index : String)
    (low high : Int64) :
    InStep (Twin heard) (Store.queryByRange index low high) (Store.queryByRange index low high) :=
  inStep_arranged (inStep_observe hheard (MemoryStore.inStep_queryByRange index low high))

theorem inStep_scanAll (hheard : heard .scanAll = true) :
    InStep (Twin heard) Store.scanAll Store.scanAll :=
  inStep_arranged (inStep_observe hheard MemoryStore.inStep_scanAll)

theorem inStep_countAll (hheard : heard .countAll = true) :
    InStep (Twin heard) Store.countAll Store.countAll :=
  inStep_observe hheard MemoryStore.inStep_countAll

theorem inStep_counter (hheard : heard .counter = true) :
    InStep (Twin heard) Store.counter Store.counter :=
  inStep_observe hheard MemoryStore.inStep_counter

/-- Nothing is settled about the reads that are heard: they meet no mishap. -/
def SparesReads (heard : StoreMethod → Bool) (s : ObservedStore MemoryStore) : Prop :=
  ∀ m ∈ s.mishaps.filter fun m => heard m.1, m.1.writes = true

theorem SparesReads.of_twin (hspares : SparesReads heard s) (h : Twin heard s t) :
    SparesReads heard t := by
  rw [SparesReads, h.mishaps]
  exact hspares

/-- Where a read is heard, it meets no mishap. -/
theorem SparesReads.spared (hspares : SparesReads heard s) {method : StoreMethod}
    (hheard : heard method = true) (hreads : method.writes = false) (m : Mishap) :
    (method, some m) ∉ s.mishaps := by
  intro hmem
  have hwrites : method.writes = true := hspares _ (List.mem_filter.mpr ⟨hmem, hheard⟩)
  rw [hreads] at hwrites
  cases hwrites

/-- No call makes a read meet a mishap. -/
theorem callsKeep_sparesReads : Store.CallsKeep (SparesReads heard) := by
  apply callsKeep_mishaps (N := fun mishaps => ∀ m ∈ mishaps.filter fun m => heard m.1,
    m.1.writes = true)
  intro mishaps method hspares m hm
  exact hspares m ((List.eraseP_sublist.filter _).subset hm)

/-- A read takes no turn that is heard. -/
theorem SparesReads.filter_eraseP (hspares : SparesReads heard s)
    {mishaps : List (StoreMethod × Option Mishap)} {method : StoreMethod}
    (hsame : (mishaps.filter fun m => heard m.1) = s.mishaps.filter fun m => heard m.1)
    (hreads : method.writes = false) :
    ((mishaps.eraseP fun m => m.1 = method).filter fun m => heard m.1)
      = mishaps.filter fun m => heard m.1 := by
  cases hheard : heard method with
  | false => exact filter_eraseP_of_unheard hheard mishaps
  | true =>
    rw [eraseP_filter hheard]
    apply List.eraseP_of_forall_not
    intro m hm hmethod
    have hwrites := hspares m (hsame ▸ hm)
    rw [of_decide_eq_true hmethod, hreads] at hwrites
    exact nomatch hwrites

/-- A read on one of two twins leaves them twins, unless it may meet a mishap that is heard. -/
theorem readsKeep_twin (hspares : SparesReads heard s) : Store.ReadsKeep (Twin heard s) := by
  -- To be twins is a matter of the stores inside, and of the mishaps and the arrangement.
  have hparts : Twin heard s = fun t => s.inner.Twin t.inner ∧
      ((t.mishaps.filter fun m => heard m.1) = (s.mishaps.filter fun m => heard m.1) ∧
        (∀ n records, s.arrange n records = records) ∧
          ∀ n records, t.arrange n records = records) :=
    funext fun t => propext
      ⟨fun h => ⟨h.inner, h.mishaps, h.inOrder, h.inOrder'⟩,
        fun h => ⟨h.1, h.2.1, h.2.2.1, h.2.2.2⟩⟩
  rw [hparts]
  refine readsKeep_of_mishaps (N := fun mishaps arrange =>
    (mishaps.filter fun m => heard m.1) = (s.mishaps.filter fun m => heard m.1) ∧
      (∀ n records, s.arrange n records = records) ∧ ∀ n records, arrange n records = records)
    MemoryStore.readsKeep_twin ?_
  intro mishaps arrange method hreads h
  exact ⟨(hspares.filter_eraseP h.1 hreads).trans h.1, h.2⟩

end ObservedStore

end Guestbook
