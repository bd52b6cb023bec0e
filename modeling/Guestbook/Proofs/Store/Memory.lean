import Guestbook.Store.Memory
import Guestbook.Proofs.Action
import Guestbook.Proofs.Record
import Guestbook.Proofs.SortedMap
import Guestbook.Proofs.Word

/-!
# Operations of the store in memory

While no attempt to connect is in flight, an operation passes the gate exactly when the store can be
reached. It leaves the gate without an attempt in flight, so the next operation starts in the same
way, and an operation that is refused changes nothing but the gate.

## Main definitions
- `MemoryStore.Passed`: a store that differs at most by what the gate holds
- `MemoryStore.Unreached`, `MemoryStore.Failing`, `MemoryStore.Refused`: why an operation did not
  take place
- `MemoryStore.Counts`: the value of the counter

## Main statements
- `Gate.satisfies_check`, `satisfies_connection`: when the gate is passed
- `satisfies_put`, `satisfies_delete`, `satisfies_queryByRange`, `satisfies_scanAll`,
  `satisfies_countAll`: what an operation on records answers and leaves
- `satisfies_counter`, `satisfies_increment`: the counter
-/

namespace Guestbook

open Outcome (Satisfies)

/-! ## The gate -/

namespace Gate

variable {κ : Type} {live : κ → Bool} {dialled : Except BoardError κ} {g : Gate κ}

/-- A caller at an idle gate is served a live connection or takes the turn. -/
theorem satisfies_arrive (hidle : g.connecting = false) :
    (arrive live g).Satisfies
      (fun arrival g' => match arrival with
        | .served _ => g' = g ∧ g.isConnected live = true
        | .busy => False
        | .attempting => g' = { g with connecting := true })
      fun _ _ => False := by
  have hturn : takeTurn g = ⟨.ok .attempting, { g with connecting := true }, []⟩ := by
    rw [takeTurn, if_neg (by simp [hidle])]
  unfold arrive
  split
  · -- No connection is held.
    rw [hturn]
    exact rfl
  · next conn hheld =>
    by_cases hlive : live conn = true
    · -- The connection held still lives and is served.
      rw [if_pos hlive]
      exact ⟨rfl, by rw [isConnected, hheld, Option.any_some, hlive]⟩
    · rw [if_neg hlive, hturn]
      exact rfl

/-- A caller at an idle gate ends with a connection, held before or dialled now, or with the failure
of the attempt, and leaves the gate idle. -/
theorem satisfies_check (hidle : g.connecting = false) :
    (check live dialled g).Satisfies
      (fun _ g' => g'.connecting = false ∧ (g.isConnected live = true ∨ ∃ conn, dialled = .ok conn))
      fun why g' => g'.connecting = false ∧
        ∃ cause, dialled = .error cause ∧ why = .error cause := by
  unfold check
  rw [Action.satisfies_bind]
  refine (satisfies_arrive hidle).imp ?_ fun _ _ h => h.elim
  intro arrival g' harrival
  cases arrival with
  | served conn => exact ⟨harrival.1 ▸ hidle, .inl harrival.2⟩
  | busy => exact harrival.elim
  | attempting =>
    -- The turn ends with the attempt, whichever way it goes.
    cases dialled with
    | ok conn => exact ⟨rfl, .inr ⟨conn, rfl⟩⟩
    | error cause => exact ⟨rfl, cause, rfl, rfl⟩

end Gate

namespace MemoryStore

variable {s t : MemoryStore} {α : Type}

/-! ## Passing the gate -/

/-- `t` is `s` but for what the gate holds, and no attempt to connect is in flight. -/
def Passed (s t : MemoryStore) : Prop :=
  ∃ gate : Gate MemoryConnection, gate.connecting = false ∧ t = { s with gate }

/-- The store cannot be reached, which is why an operation stopped. -/
def Unreached (s : MemoryStore) (why : Stop) : Prop :=
  s.reachable = false ∧ why = .error (.connectFailed "store unreachable")

/-- The store can be reached but fails queries, scans and counts, which is why one stopped. -/
def Failing (s : MemoryStore) (cause : String → BoardError) (why : Stop) : Prop :=
  s.failing = true ∧ why = .error (cause "injected store failure")

/-- Why a store does not answer a query, a scan or a count. -/
def Refused (s : MemoryStore) (cause : String → BoardError) (why : Stop) : Prop :=
  Unreached s why ∨ Failing s cause why

theorem Passed.refl (hidle : s.gate.connecting = false) : Passed s s := ⟨s.gate, hidle, rfl⟩

theorem Passed.idle (h : Passed s t) : t.gate.connecting = false := by
  obtain ⟨gate, hidle, rfl⟩ := h
  exact hidle

theorem Passed.trans {u : MemoryStore} (h : Passed s t) (h' : Passed t u) : Passed s u := by
  obtain ⟨gate, -, rfl⟩ := h
  obtain ⟨gate', hgate', rfl⟩ := h'
  exact ⟨gate', hgate', rfl⟩

/-- The gate is passed exactly when the store can be reached. -/
theorem satisfies_connection (hidle : s.gate.connecting = false) :
    (connection s).Satisfies (fun _ t => s.reachable = true ∧ Passed s t)
      fun why t => Unreached s why ∧ Passed s t := by
  unfold connection atGate
  rw [Action.satisfies_on]
  apply (Gate.satisfies_check hidle).imp
  · intro conn gate hpost
    obtain ⟨hgate, hserved⟩ := hpost
    refine ⟨?_, gate, hgate, rfl⟩
    rcases hserved with hlive | ⟨conn', hdial⟩
    · -- A connection lives only while the store can be reached.
      rw [Gate.isConnected, Option.any_eq_true] at hlive
      obtain ⟨conn', _, hconn⟩ := hlive
      exact (Bool.and_eq_true_iff.mp hconn).1
    · -- A dial succeeds only while the store can be reached.
      unfold dial at hdial
      split at hdial
      · assumption
      · exact nomatch hdial
  · rintro why gate ⟨hgate, cause, hdial, rfl⟩
    refine ⟨?_, gate, hgate, rfl⟩
    unfold dial at hdial
    split at hdial
    · exact nomatch hdial
    · next hunreachable =>
      obtain rfl := Except.error.inj hdial
      exact ⟨Bool.eq_false_iff.mpr hunreachable, rfl⟩

/-- Behind the gate of a store that can be reached an operation takes place as without the gate. -/
theorem connected_of_reachable (a : Action MemoryStore α) (hidle : s.gate.connecting = false)
    (hreachable : s.reachable = true) :
    ∃ gate : Gate MemoryConnection, gate.connecting = false ∧
      (connected a s).answer = (a { s with gate }).answer ∧
        (connected a s).state = (a { s with gate }).state := by
  have hnever : ∀ why t, ¬ (Unreached s why ∧ Passed s t) := by
    rintro why t ⟨⟨hunreachable, -⟩, -⟩
    exact Bool.false_ne_true (hunreachable.symm.trans hreachable)
  obtain ⟨conn, hanswer, -, gate, hgate, hstate⟩ := (satisfies_connection hidle).answers hnever
  have hbind := @Action.bind_of_ok _ _ _ connection (fun _ => a) s conn hanswer
  rw [hstate] at hbind
  exact ⟨gate, hgate, hbind.1, hbind.2⟩

/-- Before the gate of a store that cannot be reached an operation fails and leaves no trace. -/
theorem connected_of_unreachable (a : Action MemoryStore α) (hidle : s.gate.connecting = false)
    (hunreachable : s.reachable = false) :
    (connected a s).answer = .error (.error (.connectFailed "store unreachable")) ∧
      (connected a s).state = s := by
  obtain ⟨⟨held, connecting, ready⟩, reachable, failing, records, record⟩ := s
  obtain rfl : connecting = false := hidle
  obtain rfl : reachable = false := hunreachable
  -- The slot is empty or holds a dead connection, which stays.
  cases held <;> exact ⟨rfl, rfl⟩

/-- An operation takes place after passing the gate, or is refused for want of a connection. -/
theorem satisfies_connected {a : Action MemoryStore α} {Q : α → MemoryStore → Prop}
    {E : Stop → MemoryStore → Prop} (hidle : s.gate.connecting = false)
    (hpassed : s.reachable = true → ∀ t, Passed s t → (a t).Satisfies Q E)
    (hrefused : ∀ why t, Unreached s why → Passed s t → E why t) :
    (connected a s).Satisfies Q E := by
  unfold connected
  rw [Action.satisfies_bind]
  apply (satisfies_connection hidle).imp
  · intro conn t hpost
    obtain ⟨hreachable, ht⟩ := hpost
    exact hpassed hreachable t ht
  · intro why t hpost
    obtain ⟨hunreached, ht⟩ := hpost
    exact hrefused why t hunreached ht

/-- An operation that needs a working store is refused by one that fails or cannot be reached. -/
theorem satisfies_working {a : Action MemoryStore α} {cause : String → BoardError}
    {Q : α → MemoryStore → Prop} {E : Stop → MemoryStore → Prop}
    (hidle : s.gate.connecting = false)
    (hworks : s.reachable = true → s.failing = false → ∀ t, Passed s t → (a t).Satisfies Q E)
    (hrefused : ∀ why t, Refused s cause why → Passed s t → E why t) :
    (connected (requireWorking cause >>= fun _ => a) s).Satisfies Q E := by
  refine satisfies_connected hidle ?_ fun why t hunreached => hrefused why t (.inl hunreached)
  intro hreachable t ht
  have ht' := ht
  obtain ⟨gate, -, rfl⟩ := ht'
  rw [Action.satisfies_bind]
  unfold requireWorking
  split
  · -- The store fails after the gate was passed.
    next hfailing => exact hrefused _ _ (.inr ⟨hfailing, rfl⟩) ht
  · next hworking => exact hworks hreachable (Bool.eq_false_iff.mpr hworking) _ ht

theorem satisfies_close (hidle : s.gate.connecting = false) :
    (close s).Satisfies (fun _ t => Passed s t) fun _ _ => False :=
  ⟨{ s.gate with held := none }, hidle, rfl⟩

theorem satisfies_awaitReady (timeout : Duration) :
    (awaitReady timeout s).Satisfies (fun _ t => t = s)
      fun why t => why = .error (.notReady timeout) ∧ t = s := by
  unfold awaitReady atGate
  rw [Action.satisfies_on]
  unfold Gate.awaitReady
  split
  · exact rfl
  · exact ⟨rfl, rfl⟩

/-- The attempt made when the store is set up cannot fail: its failure is only reported. -/
theorem satisfies_connectFirst (hidle : s.gate.connecting = false) :
    (connectFirst s).Satisfies (fun _ t => Passed s t) fun _ _ => False := by
  unfold connectFirst atGate Gate.checkFirst
  rw [Action.satisfies_on, Action.satisfies_bind, Action.satisfies_attempt]
  apply (Gate.satisfies_check hidle).imp
  · rintro conn gate ⟨hgate, -⟩
    exact ⟨gate, hgate, rfl⟩
  · rintro why gate ⟨hgate, cause, -, rfl⟩
    exact ⟨gate, hgate, rfl⟩

/-! ## Operations on records -/

theorem satisfies_put (hidle : s.gate.connecting = false) (key : Int64) (r : Record) :
    (put key r s).Satisfies (fun _ t => s.reachable = true ∧ Passed (insertRaw key r s) t)
      fun why t => Unreached s why ∧ Passed s t := by
  refine satisfies_connected hidle ?_ fun _ _ hunreached ht => ⟨hunreached, ht⟩
  rintro hreachable t ⟨gate, hgate, rfl⟩
  exact ⟨hreachable, gate, hgate, rfl⟩

theorem satisfies_delete (hidle : s.gate.connecting = false) (key : Int64) :
    (delete key s).Satisfies
      (fun existed t => (s.reachable = true ∧ existed = s.records.contains key) ∧
        Passed { s with records := s.records.erase key } t)
      fun why t => Unreached s why ∧ Passed s t := by
  refine satisfies_connected hidle ?_ fun _ _ hunreached ht => ⟨hunreached, ht⟩
  rintro hreachable t ⟨gate, hgate, rfl⟩
  by_cases hcontains : s.records.contains key = true
  · rw [if_pos hcontains]
    exact ⟨⟨hreachable, hcontains.symm⟩, gate, hgate, rfl⟩
  · -- Erasing a key that is not there changes nothing.
    rw [if_neg hcontains]
    refine ⟨⟨hreachable, (Bool.eq_false_iff.mpr hcontains).symm⟩, gate, hgate, ?_⟩
    rw [SortedMap.erase_of_not_contains hcontains]

/-- A range query over the index of ids answers, in key order, the records in the range. -/
theorem satisfies_queryByRange (hidle : s.gate.connecting = false) (low high : Int64) :
    (queryByRange Bin.id low high s).Satisfies
      (fun records t => ((s.reachable = true ∧ s.failing = false) ∧
        records = s.records.values.filter (inRange Bin.id low high)) ∧ Passed s t)
      fun why t => Refused s (.rangeQueryFailed Bin.id low high) why ∧ Passed s t := by
  refine satisfies_working hidle ?_ fun _ _ hrefused ht => ⟨hrefused, ht⟩
  rintro hreachable hworks t ⟨gate, hgate, rfl⟩
  exact ⟨⟨⟨hreachable, hworks⟩, rfl⟩, gate, hgate, rfl⟩

/-- There is no other index than the one over ids. -/
theorem satisfies_queryByRange_of_ne (hidle : s.gate.connecting = false) {index : String}
    (hindex : index ≠ Bin.id) (low high : Int64) :
    (queryByRange index low high s).Satisfies (fun _ _ => False)
      fun why t => (Refused s (.rangeQueryFailed index low high) why ∨
        why = .error (.rangeQueryFailed index low high ("no secondary index on " ++ index))) ∧
        Passed s t := by
  refine satisfies_working hidle ?_ fun _ _ hrefused ht => ⟨.inl hrefused, ht⟩
  intro _ _ t ht
  dsimp only
  rw [if_pos hindex]
  exact ⟨.inr rfl, ht⟩

theorem satisfies_scanAll (hidle : s.gate.connecting = false) :
    (scanAll s).Satisfies
      (fun records t => ((s.reachable = true ∧ s.failing = false) ∧ records = s.records.values) ∧
        Passed s t)
      fun why t => Refused s .scanFailed why ∧ Passed s t := by
  refine satisfies_working hidle ?_ fun _ _ hrefused ht => ⟨hrefused, ht⟩
  rintro hreachable hworks t ⟨gate, hgate, rfl⟩
  exact ⟨⟨⟨hreachable, hworks⟩, rfl⟩, gate, hgate, rfl⟩

theorem satisfies_countAll (hidle : s.gate.connecting = false) :
    (countAll s).Satisfies
      (fun n t => ((s.reachable = true ∧ s.failing = false) ∧ n = s.records.size) ∧ Passed s t)
      fun why t => Refused s .countFailed why ∧ Passed s t := by
  refine satisfies_working hidle ?_ fun _ _ hrefused ht => ⟨hrefused, ht⟩
  rintro hreachable hworks t ⟨gate, hgate, rfl⟩
  exact ⟨⟨⟨hreachable, hworks⟩, rfl⟩, gate, hgate, rfl⟩

/-! ## The counter -/

/-- The counter stands at `n`; before its first increment it stands at zero. -/
def Counts (s : MemoryStore) (n : Int) : Prop :=
  (s.counterRecord = none ∧ n = 0) ∨
    ∃ r w, s.counterRecord = some r ∧ r.find? Bin.count = some (.int w) ∧ w.toInt = n

theorem Counts.le_greatest {n : Int} (h : Counts s n) : n ≤ Word.greatest := by
  rcases h with ⟨-, rfl⟩ | ⟨r, w, -, -, rfl⟩
  · decide
  · exact Word.le_greatest w

/-- A counter stands at one value. -/
theorem Counts.unique {n k : Int} (h : Counts s n) (h' : Counts s k) : n = k := by
  rcases h with ⟨hnone, rfl⟩ | ⟨r, w, hsome, hfind, rfl⟩
  · rcases h' with ⟨-, rfl⟩ | ⟨r', w', hsome', -⟩
    · rfl
    · exact nomatch hnone.symm.trans hsome'
  · rcases h' with ⟨hnone', -⟩ | ⟨r', w', hsome', hfind', rfl⟩
    · exact nomatch hsome.symm.trans hnone'
    · obtain rfl := Option.some.inj (hsome.symm.trans hsome')
      obtain rfl := BinValue.int.inj (Option.some.inj (hfind.symm.trans hfind'))
      rfl

/-- An increment starts from the value of the counter. -/
theorem Counts.incrementStart {n : Int} (h : Counts s n) (amount : Int64) :
    ∃ w, MemoryStore.incrementStart amount (s.counterRecord.getD .empty) = .ok w ∧ w.toInt = n := by
  rcases h with ⟨hnone, rfl⟩ | ⟨r, w, hsome, hfind, hvalue⟩
  · -- A new record has no count, which starts from zero.
    rw [hnone]
    exact ⟨0, rfl, rfl⟩
  · rw [hsome, Option.getD_some, MemoryStore.incrementStart, hfind]
    exact ⟨w, rfl, hvalue⟩

/-- Reading the counter answers its value, unless it was never incremented. -/
theorem satisfies_counter {n : Int} (hidle : s.gate.connecting = false) (hcounts : Counts s n) :
    (counter s).Satisfies (fun w t => (s.reachable = true ∧ w.toInt = n) ∧ Passed s t)
      fun why t => (Unreached s why ∨ s.counterRecord = none ∧
        why = .error (.counterUnavailable "counter record not found")) ∧ Passed s t := by
  refine satisfies_connected hidle ?_ fun _ _ hunreached ht => ⟨.inl hunreached, ht⟩
  rintro hreachable t ⟨gate, hgate, rfl⟩
  obtain ⟨gate', reachable, failing, records, record⟩ := s
  rcases hcounts with ⟨hnone, -⟩ | ⟨r, w, hsome, hfind, hvalue⟩
  · -- There is no record to read the counter from.
    obtain rfl : record = none := hnone
    exact ⟨.inr ⟨rfl, rfl⟩, gate, hgate, rfl⟩
  · obtain rfl : record = some r := hsome
    have hread : counterValue r = .ok w := by rw [counterValue, hfind]
    show (Action.orFail (counterValue r) _).Satisfies _ _
    rw [hread]
    exact ⟨⟨hreachable, hvalue⟩, gate, hgate, rfl⟩

theorem satisfies_openCounter {Q : Record → MemoryStore → Prop}
    {E : Stop → MemoryStore → Prop} :
    (openCounter s).Satisfies Q E ↔
      Q (s.counterRecord.getD .empty)
        { s with counterRecord := some (s.counterRecord.getD .empty) } := Iff.rfl

/-- An increment moves the counter by its amount, unless no word holds the sum. -/
theorem satisfies_increment {n : Int} (hidle : s.gate.connecting = false) (hcounts : Counts s n)
    (amount : Int64) :
    (increment amount s).Satisfies
      (fun w t => (s.reachable = true ∧ w.toInt = n + amount.toInt) ∧ Counts t (n + amount.toInt) ∧
        ∃ r, Passed { s with counterRecord := some r } t)
      fun why t => (Unreached s why ∨ why = .fault .addOverflow ∧
        ¬ (Word.least ≤ n + amount.toInt ∧ n + amount.toInt ≤ Word.greatest)) ∧ Passed s t := by
  refine satisfies_connected hidle ?_ fun _ _ hunreached ht => ⟨.inl hunreached, ht⟩
  rintro hreachable t ⟨gate, hgate, rfl⟩
  obtain ⟨w, hstart, hvalue⟩ := hcounts.incrementStart amount
  rw [Action.satisfies_bind, satisfies_openCounter, Action.satisfies_bind]
  dsimp only
  rw [hstart, Action.satisfies_orFail_ok, Action.satisfies_bind]
  by_cases hrange : Word.least ≤ n + amount.toInt ∧ n + amount.toInt ≤ Word.greatest
  · -- The sum is a word, which the record holds from now on.
    obtain ⟨next, hnext, hnextValue⟩ := Word.add_of_mem (a := w) (b := amount)
      (hvalue ▸ hrange.1) (hvalue ▸ hrange.2)
    rw [hnext]
    refine ⟨⟨hreachable, hvalue ▸ hnextValue⟩, .inr ⟨_, next, rfl, ?_, hvalue ▸ hnextValue⟩,
      _, gate, hgate, rfl⟩
    rw [SortedMap.find?_insert, if_pos rfl]
  · have hfault : Word.add w amount = .error .addOverflow := by
      rw [Word.add, Word.ofInt, if_neg (hvalue ▸ hrange)]
    rw [hfault]
    refine ⟨.inr ⟨rfl, hrange⟩, gate, hgate, ?_⟩
    -- Only a counter that was incremented before is far enough from zero.
    rcases hcounts with ⟨-, rfl⟩ | ⟨r, w', hsome, -, -⟩
    · have hlow := Word.least_le amount
      have hhigh := Word.le_greatest amount
      exact absurd ⟨by omega, by omega⟩ hrange
    · simp [hsome, Action.orFault, Action.stop]

end MemoryStore

end Guestbook
