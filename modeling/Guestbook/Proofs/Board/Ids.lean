import Guestbook.Cache.Map
import Guestbook.Proofs.Board.Frame
import Guestbook.Proofs.Board.Reads
import Guestbook.Proofs.Store.Records

/-!
# Ids are issued once

A run from an empty store makes steps in any order: requests to the board, connections that come and
go, failures of the store, and changes to the cache, about which nothing is assumed. Only a post
moves the counter, by one and before it stores anything, so ids that were answered increase,
whatever was deleted or failed in between, and each record lies under an id that was issued.

## Main definitions
- `BoardStep`, `BoardStep.perform`: a step of a run
- `Board.issues`: how many ids a post takes from the counter
- `Ledger`: a board, the ids that its posts were answered with, and how often the counter was moved
- `Ledger.WellFormed`: the ids and the store of a run
- `Board.OutOfIds`: a post at a counter that can go no further

## Main statements
- `Board.issues_post`, `Board.wellKept_delete`: the writes
- `BoardStep.wellKept_perform`: every step keeps the store well
- `wellFormed_of_run`: every run issues increasing ids and keeps its store well
-/

namespace Guestbook

open Outcome (Satisfies)
open Guestbook.Action (Preserves preserves_pure preserves_report)

/-! ## Steps -/

/-- A step of a run. -/
inductive BoardStep (γ : Type) where
  | request (r : BoardRequest)
  /-- The attempt to connect that is made in the background. -/
  | connectFirst
  | setReachable (on : Bool)
  | setFailing (on : Bool)
  /-- Lets a store call of an operation fail without effect, once so many have passed: the next call
  or any later one, the second query of a search for instance. -/
  | mishap (method : StoreMethod) (m : Mishap) (passed : Nat)
  /-- Whatever happens to the cache that is not a request to the board. -/
  | tamper (f : γ → γ)

namespace Board

variable {γ : Type}

/-- How many ids a post takes from the counter: one if its increment succeeds. -/
def issues (b : Board (ObservedStore MemoryStore) γ) : Nat :=
  match (Store.increment 1 b.store).answer with
  | .ok _ => 1
  | .error _ => 0

end Board

namespace BoardStep

variable {γ : Type}

/-- How often a step moves the counter. -/
def increments (b : Board (ObservedStore MemoryStore) γ) : BoardStep γ → Nat
  | request (.post _) => b.issues
  | _ => 0

/-- The ids that a step was answered with. -/
def newIds : BoardStep γ → Except Stop BoardReply → List Int64
  | request (.post _), .ok (.id id) => [id]
  | _, _ => []

/-- Makes a step. -/
def perform [Cache γ] : BoardStep γ → Action (Board (ObservedStore MemoryStore) γ) BoardReply
  | request r => r.serve
  | connectFirst => do
    Board.atStore (ObservedStore.inside MemoryStore.connectFirst)
    return .done
  | setReachable on => do
    Board.atStore (ObservedStore.inside (Action.update (MemoryStore.setReachable on)))
    return .done
  | setFailing on => do
    Board.atStore (ObservedStore.inside (Action.update (MemoryStore.setFailing on)))
    return .done
  | mishap method m passed => do
    Board.atStore (Action.update (ObservedStore.addMishap method m passed))
    return .done
  | tamper f => do
    Board.atCache (Action.update f)
    return .done

theorem state_perform_connectFirst [Cache γ] (b : Board (ObservedStore MemoryStore) γ) :
    ((connectFirst : BoardStep γ).perform b).state
      = (Board.atStore (ObservedStore.inside MemoryStore.connectFirst) b).state :=
  Action.state_bind_pure ..

end BoardStep

/-- A board, the ids that its posts were answered with in the order of the posts, and how often its
counter was moved. -/
structure Ledger (γ : Type) where
  board : Board (ObservedStore MemoryStore) γ
  ids : List Int64 := []
  increments : Nat := 0

namespace Ledger

variable {γ : Type}

/-- A new board over an empty store that can be reached or not, with an index and a cache. -/
def opened (index : String) (reachable : Bool) (cache : γ) : Ledger γ :=
  { board := { store := { inner := { reachable } }, cache, index } }

variable [Cache γ]

/-- One step of a run. -/
def next (l : Ledger γ) (step : BoardStep γ) : Ledger γ :=
  let o := step.perform l.board
  { board := o.state
    ids := l.ids ++ step.newIds o.answer
    increments := l.increments + step.increments l.board }

/-- A run of steps. -/
def play (l : Ledger γ) (steps : List (BoardStep γ)) : Ledger γ := steps.foldl next l

/-- The ids answered increase in the order of the posts and were issued by the counter, which counts
its increments; every record is that of a message under an id that was issued. -/
structure WellFormed (l : Ledger γ) : Prop where
  increasing : l.ids.Pairwise (· < ·)
  issued : ∀ id ∈ l.ids, 1 ≤ id.toInt ∧ id.toInt ≤ l.increments
  store : l.board.store.inner.WellKept l.increments

end Ledger

/-! ## Writes -/

namespace Board

variable {γ : Type} [Cache γ] {b : Board (ObservedStore MemoryStore) γ} {issued : Int}

omit [Cache γ] in
/-- The attempt to store a message under an id that was issued keeps the store well. -/
theorem preserves_storing {m : Message} (hpositive : 1 ≤ m.id.toInt)
    (hissued : m.id.toInt ≤ issued) :
    Preserves (Inside (MemoryStore.WellKept · issued)) (Action.attempt
      (atStore (Store.put m.id (Record.ofMessage m)) :
        Action (Board (ObservedStore MemoryStore) γ) Unit)) := by
  have hput := ObservedStore.preserves_observe (.put m.id)
    (MemoryStore.WellKept.preserves_put (Record.isMessage_ofMessage m) hpositive hissued)
  exact (preserves_atStore hput).attempt

/-- A post answers the next id. Whether it is answered or not, the counter has moved by the ids it
took, and the store is well kept. -/
theorem issues_post (h : b.store.inner.WellKept issued) (m : Message) :
    (post m b).Satisfies
      (fun id c => (id.toInt = issued + 1 ∧ b.issues = 1) ∧ c.store.inner.WellKept (issued + 1))
      fun _ c => c.store.inner.WellKept (issued + b.issues) := by
  unfold post
  rw [Action.satisfies_bind, satisfies_atStore]
  apply (ObservedStore.satisfies_increment h.idle h.counts 1).with_answer.with_stop.imp
  · intro id store hpost
    obtain ⟨⟨⟨hid, hcounts⟩, r, hstore⟩, hanswer⟩ := hpost
    have hissues : b.issues = 1 := by simp [issues, hanswer]
    rw [Word.toInt_one] at hid hcounts
    have hnonneg := h.issued_nonneg
    have hkept : store.inner.WellKept (issued + 1) := h.increment (by omega) hcounts hstore.inner
    rw [hissues, Action.satisfies_bind]
    have hstoring : Preserves (Inside (MemoryStore.WellKept · (issued + 1))) (Action.attempt
        (atStore (Store.put id (Record.ofMessage { m with id })) : Action (Board _ γ) Unit)) :=
      preserves_storing (m := { m with id }) (by dsimp; omega) (by dsimp; omega)
    apply (hstoring.satisfies (s := { b with store }) hkept).imp
    · intro stored c hc
      -- Nothing after the attempt to store touches the store.
      rw [Action.satisfies_bind]
      apply ((preserves_atCache Cache.clear).satisfies hc).imp
      · intro _ d hd
        rw [Action.satisfies_bind]
        cases stored with
        | ok _ =>
          rw [Action.satisfies_orFail_ok, Action.satisfies_bind, Action.satisfies_report,
            Action.satisfies_pure]
          exact ⟨⟨hid, rfl⟩, hd⟩
        | error cause =>
          rw [Action.satisfies_orFail_error]
          exact hd
      · intro why d hd
        exact hd
    · intro why c hc
      exact hc
  · intro why store hpost
    -- Without an id nothing happens to the store.
    obtain ⟨⟨-, hstore⟩, hanswer⟩ := hpost
    have hissues : b.issues = 0 := by simp [issues, hanswer]
    rw [hissues]
    simpa using h.passed hstore.inner

theorem wellKept_delete (id : Int64) :
    Preserves (Inside (MemoryStore.WellKept · issued))
      (delete id : Action (Board (ObservedStore MemoryStore) γ) Bool) := by
  have hdelete := ObservedStore.preserves_observe (.delete id)
    (MemoryStore.WellKept.preserves_delete issued id)
  refine (preserves_atCache _).bind fun _ => ?_
  exact (preserves_atStore hdelete).bind fun _ => (preserves_report _).bind fun _ =>
    preserves_pure _

/-! ## A counter that can go no further -/

/-- What a post does at a counter that stands at the greatest word: it changes neither records nor
counter nor cache, and goes out of range unless the store cannot be reached or the increment is to
fail anyway. -/
structure OutOfIds (b : Board (ObservedStore MemoryStore) γ) (m : Message) : Prop where
  records : (post m b).state.store.inner.records = b.store.inner.records
  counter : (post m b).state.store.inner.counterRecord = b.store.inner.counterRecord
  cache : (post m b).state.cache = b.cache
  fault : b.store.inner.reachable = true → b.store.mishapFor? .increment = none →
    (post m b).answer = .error (.fault .addOverflow)

/-- No word is the successor of the greatest one. -/
private theorem not_successor_of_greatest {w : Int64}
    (h : w.toInt = Word.greatest + (1 : Int64).toInt) : False := by
  have hle := Word.le_greatest w
  rw [Word.toInt_one] at h
  omega

private theorem stays_post_of_greatest (hidle : b.store.inner.gate.connecting = false)
    (hcounts : b.store.inner.Counts Word.greatest) (m : Message) :
    b.store.inner.Passed (post m b).state.store.inner ∧ (post m b).state.cache = b.cache := by
  have hpost : (post m b).Satisfies
      (fun _ c => b.store.inner.Passed c.store.inner ∧ c.cache = b.cache)
      fun _ c => b.store.inner.Passed c.store.inner ∧ c.cache = b.cache := by
    unfold post
    rw [Action.satisfies_bind, satisfies_atStore]
    apply (ObservedStore.satisfies_increment hidle hcounts 1).imp
    · intro id store hpost
      exact (not_successor_of_greatest hpost.1.1).elim
    · intro why store hpost
      exact ⟨hpost.2.inner, rfl⟩
  exact hpost.state

/-- A store that can be reached lets the increment go on to the sum. -/
private theorem fault_increment_of_greatest {s : ObservedStore MemoryStore}
    (hidle : s.inner.gate.connecting = false) (hcounts : s.inner.Counts Word.greatest)
    (hreachable : s.inner.reachable = true) (hspared : s.mishapFor? .increment = none) :
    (Store.increment 1 s).Satisfies (fun _ _ => False) fun why _ => why = .fault .addOverflow := by
  have hinside : Store.increment 1 s = _ := ObservedStore.observe_of_spared hspared
  rw [hinside, ObservedStore.inside, Action.satisfies_on]
  apply (MemoryStore.satisfies_increment hidle hcounts 1).imp
  · intro id inner hpost
    exact (not_successor_of_greatest hpost.1.2).elim
  · intro why inner hpost
    obtain ⟨hunreached | ⟨hwhy, -⟩, -⟩ := hpost
    · exact absurd (hreachable.symm.trans hunreached.1) (by simp)
    · exact hwhy

private theorem fault_post_of_greatest (hidle : b.store.inner.gate.connecting = false)
    (hcounts : b.store.inner.Counts Word.greatest) (m : Message)
    (hreachable : b.store.inner.reachable = true)
    (hspared : b.store.mishapFor? .increment = none) :
    (post m b).answer = .error (.fault .addOverflow) := by
  have hpost : (post m b).Satisfies (fun _ _ => False) fun why _ => why = .fault .addOverflow := by
    unfold post
    rw [Action.satisfies_bind, satisfies_atStore]
    apply (fault_increment_of_greatest hidle hcounts hreachable hspared).imp
    · intro id store hnever
      exact hnever.elim
    · intro why store hwhy
      exact hwhy
  cases hanswer : (post m b).answer with
  | ok id => exact (hpost.of_ok hanswer).elim
  | error why => rw [hpost.of_error hanswer]

theorem outOfIds (hidle : b.store.inner.gate.connecting = false)
    (hcounts : b.store.inner.Counts Word.greatest) (m : Message) : b.OutOfIds m := by
  obtain ⟨⟨gate, -, hinner⟩, hcache⟩ := stays_post_of_greatest hidle hcounts m
  constructor
  · rw [hinner]
  · rw [hinner]
  · exact hcache
  · exact fault_post_of_greatest hidle hcounts m

end Board

/-! ## Runs -/

namespace BoardStep

variable {γ : Type} [Cache γ] {b : Board (ObservedStore MemoryStore) γ} {issued : Int}

theorem wellKept_perform_post (h : b.store.inner.WellKept issued) {m : Message}
    {step : BoardStep γ} (hstep : step = request (.post m)) :
    (step.perform b).state.store.inner.WellKept (issued + step.increments b) ∧
      (step.newIds (step.perform b).answer = [] ∨
        ∃ id, step.newIds (step.perform b).answer = [id] ∧ id.toInt = issued + 1 ∧
          step.increments b = 1) := by
  subst hstep
  have hserve : ((request (.post m) : BoardStep γ).perform b).Satisfies
      (fun reply c => (∃ id, reply = .id id ∧ id.toInt = issued + 1 ∧ b.issues = 1) ∧
        c.store.inner.WellKept (issued + b.issues))
      fun _ c => c.store.inner.WellKept (issued + b.issues) := by
    apply (Action.satisfies_bind ..).mpr
    apply (Board.issues_post h m).imp
    · intro id c hpost
      obtain ⟨⟨hid, hissues⟩, hkept⟩ := hpost
      rw [Action.satisfies_pure, hissues]
      exact ⟨⟨id, rfl, hid, rfl⟩, hkept⟩
    · intro why c hkept
      exact hkept
  cases hanswer : ((request (.post m) : BoardStep γ).perform b).answer with
  | ok reply =>
    obtain ⟨⟨id, rfl, hid⟩, hkept⟩ := hserve.of_ok hanswer
    exact ⟨hkept, .inr ⟨id, rfl, hid⟩⟩
  | error why => exact ⟨hserve.of_error hanswer, .inl rfl⟩

/-- Every step keeps the store well and moves the counter as often as it says. It is answered with
no id, or with the one that it took. -/
theorem wellKept_perform (h : b.store.inner.WellKept issued) (step : BoardStep γ) :
    (step.perform b).state.store.inner.WellKept (issued + step.increments b) ∧
      (step.newIds (step.perform b).answer = [] ∨
        ∃ id, step.newIds (step.perform b).answer = [id] ∧ id.toInt = issued + 1 ∧
          step.increments b = 1) := by
  -- A step that takes no id leaves the counter where it is.
  have hsame : ∀ {c : Board (ObservedStore MemoryStore) γ}, c.store.inner.WellKept issued →
      c.store.inner.WellKept (issued + (0 : Nat)) := by
    intro c hc
    simpa using hc
  cases step with
  | request r =>
    cases hreads : r.reads with
    | true =>
      have hover := BoardRequest.passed_serve hreads b (MemoryStore.Passed.refl h.idle)
      cases r with
      | post m => cases hreads
      | delete id => cases hreads
      | _ => exact ⟨hsame (h.passed hover), .inl rfl⟩
    | false =>
      cases r with
      | post m => exact wellKept_perform_post h rfl
      | delete id =>
        have hdelete : Preserves (Board.Inside (MemoryStore.WellKept · issued))
            ((request (.delete id) : BoardStep γ).perform) :=
          (Board.wellKept_delete id).bind fun _ => preserves_pure _
        exact ⟨hsame (hdelete b h), .inl rfl⟩
      | _ => cases hreads
  | connectFirst =>
    have hinside := ObservedStore.preserves_inside
      (MemoryStore.WellKept.preserves_connectFirst issued)
    have hconnect : Preserves (Board.Inside (MemoryStore.WellKept · issued))
        ((connectFirst : BoardStep γ).perform) :=
      (Board.preserves_atStore hinside).bind fun _ => preserves_pure _
    exact ⟨hsame (hconnect b h), .inl rfl⟩
  -- Switches, mishaps and the cache touch neither records nor counter.
  | setReachable on =>
    exact ⟨hsame ⟨h.idle, h.counts, h.issued_nonneg, h.records⟩, .inl rfl⟩
  | setFailing on =>
    exact ⟨hsame ⟨h.idle, h.counts, h.issued_nonneg, h.records⟩, .inl rfl⟩
  | mishap method m passed => exact ⟨hsame h, .inl rfl⟩
  | tamper f => exact ⟨hsame h, .inl rfl⟩

end BoardStep

namespace Ledger

variable {γ : Type} [Cache γ]

omit [Cache γ] in
/-- A new board has answered no id, and its store is well kept. -/
theorem wellFormed_opened (index : String) (reachable : Bool) (cache : γ) :
    (opened index reachable cache).WellFormed where
  increasing := .nil
  issued := by simp [opened]
  store := .empty rfl rfl rfl

/-- An id above all that were issued before comes to the end. -/
theorem increasing_append {ids : List Int64} {issued : Int} {id : Int64}
    (hincreasing : ids.Pairwise (· < ·)) (hle : ∀ before ∈ ids, before.toInt ≤ issued)
    (hid : id.toInt = issued + 1) : (ids ++ [id]).Pairwise (· < ·) := by
  rw [List.pairwise_append]
  refine ⟨hincreasing, List.pairwise_singleton _ _, ?_⟩
  intro before hbefore after hafter
  rw [List.mem_singleton.mp hafter, Int64.lt_iff_toInt_lt, hid]
  exact Int.lt_add_one_of_le (hle before hbefore)

/-- Every step keeps the ids and the store. -/
theorem WellFormed.next {l : Ledger γ} (h : l.WellFormed) (step : BoardStep γ) :
    (l.next step).WellFormed := by
  obtain ⟨hstore, hids⟩ := BoardStep.wellKept_perform h.store step
  have hincrements : ((l.next step).increments : Int) =
      (l.increments : Int) + (step.increments l.board : Int) := by simp [Ledger.next]
  have hold : ∀ id ∈ l.ids, 1 ≤ id.toInt ∧ id.toInt ≤ (l.next step).increments := by
    intro id hid
    have hissued := h.issued id hid
    omega
  rcases hids with hnone | ⟨id, hnew, hid, hone⟩
  · have hsame : (l.next step).ids = l.ids := by simp [Ledger.next, hnone]
    exact ⟨hsame ▸ h.increasing, hsame ▸ hold, hincrements ▸ hstore⟩
  · -- The new id is above all that were issued before.
    have hadded : (l.next step).ids = l.ids ++ [id] := by simp [Ledger.next, hnew]
    refine ⟨?_, ?_, hincrements ▸ hstore⟩
    · rw [hadded]
      exact increasing_append h.increasing (fun before hbefore => (h.issued before hbefore).2) hid
    · rw [hadded]
      intro other hother
      rcases List.mem_append.mp hother with hbefore | hafter
      · exact hold other hbefore
      · obtain rfl := List.mem_singleton.mp hafter
        omega

theorem WellFormed.play {l : Ledger γ} (h : l.WellFormed) (steps : List (BoardStep γ)) :
    (l.play steps).WellFormed := by
  induction steps generalizing l with
  | nil => exact h
  | cons step steps ih => exact ih (h.next step)

/-- Every run from an empty store answers increasing ids and keeps its store well. A post at a
counter that stands at the greatest word goes out of range and changes nothing. -/
theorem wellFormed_of_run (index : String) (reachable : Bool) (cache : γ)
    (steps : List (BoardStep γ)) :
    ((opened index reachable cache).play steps).WellFormed ∧
      ∀ (b : Board (ObservedStore MemoryStore) γ) (m : Message),
        b.store.inner.gate.connecting = false → b.store.inner.Counts Word.greatest →
          b.OutOfIds m :=
  ⟨(wellFormed_opened index reachable cache).play steps,
    fun _ m hidle hcounts => Board.outOfIds hidle hcounts m⟩

/-- Posts, one of which takes an id and fails to store its message, another during an outage, and
deletes of the highest id and of one that was never answered. -/
def wastefulSteps : List (BoardStep MapCache) :=
  [.request (.post { id := 7, author := "a", text := "1" }), .mishap .put .notConnected 0,
    .request (.post { author := "b", text := "2" }), .request (.delete 2),
    .request (.post { author := "c", text := "3" }), .request (.delete 3), .setReachable false,
    .request (.post { author := "d", text := "4" }), .setReachable true,
    .request (.post { author := "e", text := "5" })]

/-- A board whose counter stands at the greatest word. -/
def exhausted : Board (ObservedStore MemoryStore) MapCache :=
  let record : Record := SortedMap.empty.insert Bin.count (.int 0x7FFFFFFFFFFFFFFF)
  { store := { inner := { counterRecord := some record } }, cache := {} }

/-- The ids answered are the first, the third and the fourth of four that were issued. -/
theorem wellFormed_of_run_wasteful :
    ((opened Bin.id true ({} : MapCache)).play wastefulSteps).ids = [1, 3, 4] ∧
      ((opened Bin.id true ({} : MapCache)).play wastefulSteps).increments = 4 ∧
      ((opened Bin.id true ({} : MapCache)).play wastefulSteps).WellFormed ∧
      exhausted.store.inner.Counts Word.greatest ∧
      (Board.post { author := "f", text := "6" } exhausted).answer = .error (.fault .addOverflow) :=
  have hrun := wellFormed_of_run Bin.id true ({} : MapCache) wastefulSteps
  have hcounts : exhausted.store.inner.Counts Word.greatest :=
    .inr ⟨_, 0x7FFFFFFFFFFFFFFF, rfl, by simp [SortedMap.find?_insert], by decide⟩
  ⟨by decide +kernel, by decide +kernel, hrun.1, hcounts,
    (hrun.2 exhausted { author := "f", text := "6" } rfl hcounts).fault rfl rfl⟩

end Ledger

end Guestbook
