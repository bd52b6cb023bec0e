import Mathlib.Algebra.Ring.Int.Defs
import Guestbook.Proofs.Store.Run

/-!
# The counter adds up

Whatever happens to a store between its increments, each of them answers the sum of all amounts that
were added, its own included, and the counter can be read off at any time after the first. An
increment without a connection or beyond a word adds nothing. Sums with negative amounts are sums
too; the first increment starts from zero, so it is never beyond a word and no counter record stays
without a value.

## Main definitions
- `StoreHistory.total`: the sum of amounts
- `MemoryStore.CountsUp`: what a store makes of the next increment and of a look at the counter
- `StoreHistory.Tallied`: the invariant of a run

## Main statements
- `Tallied.next`: a step
- `Tallied.countsUp`: what a store answers within the invariant
- `countsUp_of_run`: every run
-/

namespace Guestbook

/-- The sum of amounts. -/
def StoreHistory.total (amounts : List Int64) : Int := (amounts.map Int64.toInt).sum

open StoreHistory (total)

theorem StoreHistory.total_append (amounts : List Int64) (amount : Int64) :
    total (amounts ++ [amount]) = total amounts + amount.toInt := by
  simp [total]

/-! ## What a store answers -/

namespace MemoryStore

/-- What a store makes of an increment and of a look at its counter, once `amounts` were added. -/
structure CountsUp (s : MemoryStore) (amounts : List Int64) : Prop where
  /-- An increment answers the sum of all amounts, its own included. -/
  answered : ∀ amount sum, (increment amount s).answer = .ok sum →
    sum.toInt = total (amounts ++ [amount])
  /-- It stops only for want of a connection or because no word holds the sum, and then it changes
  neither records nor counter. -/
  stopped : ∀ amount why, (increment amount s).answer = .error why →
    s.SameData (increment amount s).state ∧
      (Unreached s why ∨ s.reachable = true ∧ why = .fault .addOverflow ∧
        ¬ (Word.least ≤ total (amounts ++ [amount]) ∧ total (amounts ++ [amount]) ≤ Word.greatest))
  /-- The counter can be read once an amount was added, and is the sum. -/
  read : s.reachable = true → amounts ≠ [] →
    ∃ sum, (counter s).answer = .ok sum ∧ sum.toInt = total amounts
  /-- It is unavailable before that, and for no other reason. -/
  unavailable_iff : ∀ reason, (counter s).answer = .error (.error (.counterUnavailable reason)) ↔
    (s.reachable = true ∧ amounts = []) ∧ reason = "counter record not found"
  /-- A look at the counter record finds an integer, if there is a record. -/
  readable : ∀ r, s.counterRecord = some r → ∃ n, counterValue r = .ok n
  /-- An increment finds an integer or nothing in the record that it starts from. -/
  startable : ∀ amount, ∃ n, incrementStart amount (s.counterRecord.getD .empty) = .ok n

variable {s : MemoryStore}

/-- An operation that stops for another reason than an unreachable store has passed the gate. -/
theorem reachable_of_stop {α : Type} {a : Action MemoryStore α} {why : Stop}
    (hidle : s.gate.connecting = false) (hanswer : (connected a s).answer = .error why)
    (hpassed : ¬ Unreached s why) : s.reachable = true := by
  cases hreachable : s.reachable with
  | true => rfl
  | false =>
    have hrefused := (connected_of_unreachable a hidle hreachable).1
    exact absurd ⟨hreachable, Except.error.inj (hanswer.symm.trans hrefused)⟩ hpassed

/-- Without a counter record there is nothing to read. -/
theorem answer_counter_of_unopened (hidle : s.gate.connecting = false)
    (hreachable : s.reachable = true) (hnone : s.counterRecord = none) :
    (counter s).answer = .error (.error (.counterUnavailable "counter record not found")) := by
  unfold counter
  obtain ⟨gate, -, hanswer, -⟩ := connected_of_reachable _ hidle hreachable
  rw [hanswer]
  obtain ⟨gate', reachable, failing, records, record⟩ := s
  obtain rfl : record = none := hnone
  rfl

end MemoryStore

/-! ## The invariant -/

namespace StoreHistory

open MemoryStore (CountsUp Counts Passed)

variable {h : StoreHistory}

/-- No attempt to connect is in flight, the counter stands at the sum of the amounts, and there is a
counter record as soon as there is an amount. -/
structure Tallied (h : StoreHistory) : Prop where
  idle : h.store.gate.connecting = false
  counts : h.store.Counts (total h.amounts)
  unopened_iff : h.store.counterRecord = none ↔ h.amounts = []

/-- A new store has counted nothing. -/
theorem Tallied.opened (reachable : Bool) : (opened reachable).Tallied where
  idle := rfl
  counts := .inl ⟨rfl, rfl⟩
  unopened_iff := iff_of_true rfl rfl

/-- What leaves the counter alone and adds nothing keeps the invariant. -/
theorem Tallied.of_idles {h' : StoreHistory} (ht : h.Tallied)
    (hstore : h'.store.Idles h.store.counterRecord) (hamounts : h'.amounts = h.amounts) :
    h'.Tallied where
  idle := hstore.idle
  counts := by
    rw [hamounts, Counts, hstore.counter]
    exact ht.counts
  unopened_iff := by
    rw [hamounts, hstore.counter]
    exact ht.unopened_iff

/-- An increment adds its amount or, if it stops, nothing. -/
theorem Tallied.next_increment (ht : h.Tallied) (amount : Int64) :
    (h.next (.request (.increment amount))).Tallied := by
  have hincrement := MemoryStore.satisfies_increment ht.idle ht.counts amount
  have hstate : (h.next (.request (.increment amount))).store
      = (MemoryStore.increment amount h.store).state := Action.state_bind_pure _ _ h.store
  have hanswer : ((StoreStep.request (.increment amount)).perform h.store).answer
      = (MemoryStore.increment amount h.store).answer.map .word :=
    Action.answer_bind_pure _ _ h.store
  have hamounts : (h.next (.request (.increment amount))).amounts = h.amounts
      ++ StoreStep.added (.request (.increment amount))
        ((MemoryStore.increment amount h.store).answer.map .word) := by rw [← hanswer]; rfl
  cases hcase : (MemoryStore.increment amount h.store).answer with
  | ok sum =>
    rw [hcase] at hamounts
    obtain ⟨-, hcounts, r, gate, hidle, hpassed⟩ := hincrement.of_ok hcase
    rw [← hstate] at hcounts hpassed
    rw [← total_append] at hcounts
    have hadded : (h.next (.request (.increment amount))).amounts = h.amounts ++ [amount] :=
      hamounts
    refine ⟨by rw [hpassed]; exact hidle, hadded ▸ hcounts, ?_⟩
    -- There is a record and an amount now.
    rw [hpassed, hadded]
    exact iff_of_false (Option.some_ne_none r) (by simp)
  | error why =>
    rw [hcase] at hamounts
    obtain ⟨-, hpassed⟩ := hincrement.of_error hcase
    rw [← hstate] at hpassed
    refine ht.of_idles (MemoryStore.Idles.passed ⟨ht.idle, rfl⟩ hpassed) ?_
    exact hamounts.trans (List.append_nil _)

/-- Every step keeps the invariant. -/
theorem Tallied.next (ht : h.Tallied) (step : StoreStep) : (h.next step).Tallied := by
  cases hstep : step.amount? with
  | none =>
    apply ht.of_idles (step.preserves_perform hstep h.store ⟨ht.idle, rfl⟩)
    -- Such a step has no amount, whether it is answered or not.
    show h.amounts ++ step.added _ = h.amounts
    unfold StoreStep.added
    rw [hstep]
    split <;> exact List.append_nil _
  | some amount =>
    obtain rfl := StoreStep.eq_increment hstep
    exact ht.next_increment amount

theorem Tallied.play (ht : h.Tallied) (steps : List StoreStep) : (h.play steps).Tallied := by
  induction steps generalizing h with
  | nil => exact ht
  | cons step steps ih => exact ih (ht.next step)

/-! ## Answers within the invariant -/

/-- The counter record holds an integer, if there is one. -/
theorem Tallied.readable (ht : h.Tallied) {r : Record} (hr : h.store.counterRecord = some r) :
    ∃ n, MemoryStore.counterValue r = .ok n := by
  rcases ht.counts with ⟨hnone, -⟩ | ⟨r', n, hsome, hfind, -⟩
  · exact nomatch hnone.symm.trans hr
  · obtain rfl := Option.some.inj (hsome.symm.trans hr)
    exact ⟨n, by rw [MemoryStore.counterValue, hfind]⟩

/-- Before the first increment, and only then, the counter is unavailable. -/
theorem Tallied.unavailable_iff (ht : h.Tallied) (reason : String) :
    (MemoryStore.counter h.store).answer = .error (.error (.counterUnavailable reason)) ↔
      (h.store.reachable = true ∧ h.amounts = []) ∧ reason = "counter record not found" := by
  constructor
  · intro hanswer
    obtain ⟨hwhy, -⟩ := (MemoryStore.satisfies_counter ht.idle ht.counts).of_error hanswer
    have hpassed : ¬ h.store.Unreached (.error (.counterUnavailable reason)) := fun h => nomatch h.2
    obtain ⟨hnone, hreason⟩ := hwhy.resolve_left hpassed
    refine ⟨⟨MemoryStore.reachable_of_stop ht.idle hanswer hpassed, ht.unopened_iff.mp hnone⟩, ?_⟩
    injection hreason with hcause
    injection hcause
  · intro hunopened
    obtain ⟨⟨hreachable, hamounts⟩, rfl⟩ := hunopened
    exact MemoryStore.answer_counter_of_unopened ht.idle hreachable (ht.unopened_iff.mpr hamounts)

/-- Why an increment stops. -/
theorem Tallied.stopped (ht : h.Tallied) {amount : Int64} {why : Stop}
    (hanswer : (MemoryStore.increment amount h.store).answer = .error why) :
    h.store.Unreached why ∨ h.store.reachable = true ∧ why = .fault .addOverflow ∧
      ¬ (Word.least ≤ total (h.amounts ++ [amount]) ∧
        total (h.amounts ++ [amount]) ≤ Word.greatest) := by
  obtain ⟨hwhy, -⟩ := (MemoryStore.satisfies_increment ht.idle ht.counts amount).of_error hanswer
  rw [total_append]
  rcases hwhy with hunreached | ⟨hfault, hrange⟩
  · exact .inl hunreached
  · -- Behind the gate nothing else can go wrong than the sum.
    have hpassed : ¬ h.store.Unreached why := fun h => nomatch hfault.symm.trans h.2
    exact .inr ⟨MemoryStore.reachable_of_stop ht.idle hanswer hpassed, hfault, hrange⟩

/-- A store within the invariant counts up. -/
theorem Tallied.countsUp (ht : h.Tallied) : h.store.CountsUp h.amounts := by
  constructor
  case answered =>
    intro amount sum hanswer
    have hincrement := MemoryStore.satisfies_increment ht.idle ht.counts amount
    rw [total_append, (hincrement.of_ok hanswer).1.2]
  case stopped =>
    intro amount why hanswer
    exact ⟨(MemoryStore.satisfies_increment_any amount).of_error hanswer, ht.stopped hanswer⟩
  case read =>
    intro hreachable hamounts
    have hcounter := MemoryStore.satisfies_counter ht.idle ht.counts
    obtain ⟨sum, hanswer, ⟨-, hsum⟩, -⟩ := hcounter.answers fun why t hstop => by
      obtain ⟨hunreached | ⟨hnone, -⟩, -⟩ := hstop
      · exact nomatch hreachable.symm.trans hunreached.1
      · exact hamounts (ht.unopened_iff.mp hnone)
    exact ⟨sum, hanswer, hsum⟩
  case unavailable_iff => exact ht.unavailable_iff
  case readable => exact fun r hr => ht.readable hr
  case startable =>
    intro amount
    obtain ⟨n, hstart, -⟩ := ht.counts.incrementStart amount
    exact ⟨n, hstart⟩

/-! ## Runs -/

/-- After every run of a new store the counter is the sum of the amounts that were added. -/
theorem countsUp_of_run (reachable : Bool) (steps : List StoreStep) :
    ((opened reachable).play steps).store.CountsUp ((opened reachable).play steps).amounts :=
  ((Tallied.opened reachable).play steps).countsUp

/-- Increments of either sign, one of them during an outage and one beyond a word. -/
def restlessSteps : List StoreStep :=
  [.connectFirst, .request .counter, .request (.increment (-5)), .request (.setReachable false),
    .request (.increment 100), .request (.setReachable true), .request .close,
    .request (.increment Int64.maxValue), .request (.increment 6), .request (.insertRaw 3 .empty),
    .request (.increment 5)]

/-- The outage and the sum beyond a word leave no trace, and the counter ends at the greatest
word. -/
theorem countsUp_of_run_restless :
    ((opened true).play restlessSteps).amounts = [-5, Int64.maxValue, 5] ∧
      ((opened true).play restlessSteps).store.CountsUp [-5, Int64.maxValue, 5] ∧
      (∃ sum, (MemoryStore.counter ((opened true).play restlessSteps).store).answer = .ok sum ∧
        sum.toInt = Word.greatest) ∧
      (MemoryStore.increment 1 ((opened true).play restlessSteps).store).answer
        = .error (.fault .addOverflow) := by
  have hamounts : ((opened true).play restlessSteps).amounts = [-5, Int64.maxValue, 5] := by
    decide +kernel
  have hcounts := countsUp_of_run true restlessSteps
  rw [hamounts] at hcounts
  obtain ⟨sum, hanswer, hsum⟩ := hcounts.read (by decide +kernel) (by decide)
  exact ⟨hamounts, hcounts, ⟨sum, hanswer, hsum.trans (by decide)⟩, rfl⟩

end StoreHistory

end Guestbook
