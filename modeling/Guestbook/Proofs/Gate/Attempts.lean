import Guestbook.Gate.Rehearsal
import Guestbook.Proofs.Gate.Run

/-!
# One attempt at a time

Whatever the callers do and however their attempts end, at most one attempt is in flight, and the
flag of the gate is set exactly while there is one. So a caller without a live connection either
starts the only attempt or is turned away, and once an attempt has ended the next caller may start
another.

## Main definitions
- `ConnectorGate.Flagged`: the flag tells of the attempts in flight
- `ConnectorGate.OneAttempt`: what a caller gets, and what the end of an attempt leaves

## Main statements
- `flagged_play`: every run keeps the flag
- `oneAttempt_of_run`: every run leaves a gate with one attempt at most
-/

namespace Guestbook

namespace ConnectorGate

variable {κ : Type} {s : ConnectorGate κ}

/-! ## The flag -/

/-- One attempt is in flight while the flag of the gate is set, and none while it is not. -/
def Flagged (s : ConnectorGate κ) : Prop := s.inFlight.length = s.gate.connecting.toNat

theorem Flagged.connecting_iff (h : Flagged s) : s.gate.connecting = true ↔ s.inFlight ≠ [] := by
  unfold Flagged at h
  rw [← List.length_pos_iff, h]
  cases s.gate.connecting <;> simp

/-- An attempt that is in flight is the only one. -/
theorem Flagged.eq_singleton (h : Flagged s) {caller : Caller} (hcaller : caller ∈ s.inFlight) :
    s.inFlight = [caller] := by
  have hflag := h.connecting_iff.mpr (List.ne_nil_of_mem hcaller)
  -- The flag counts for one attempt, so there is no room for another beside this one.
  have hone : s.inFlight.length = 1 := by simpa [Flagged, hflag] using h
  obtain ⟨other, hother⟩ := List.length_eq_one_iff.mp hone
  rw [hother] at hcaller ⊢
  rw [List.mem_singleton.mp hcaller]

/-- An attempt ends in one of three ways. -/
theorem Move.ends_cases {m : Move κ} {caller : Caller} (h : m.ends? = some caller) :
    (∃ connection, m = .succeed caller connection) ∨ (∃ cause, m = .fail caller cause) ∨
      m = .abandon caller := by
  cases m <;> simp_all [Move.ends?]

/-- The end of an attempt in flight leaves none. -/
theorem Flagged.erase (h : Flagged s) {caller : Caller} (hcaller : caller ∈ s.inFlight) :
    s.inFlight.erase caller = [] := by
  simp [h.eq_singleton hcaller]

variable [Connection κ]

/-- A move that ends an attempt clears the flag and leaves no attempt in flight. -/
theorem Flagged.ended (h : Flagged s) {caller : Caller} (hcaller : caller ∈ s.inFlight) {m : Move κ}
    (hends : m.ends? = some caller) :
    (m.perform s).state.inFlight = [] ∧ (m.perform s).state.gate.connecting = false := by
  obtain ⟨connection, rfl⟩ | ⟨cause, rfl⟩ | rfl := Move.ends_cases hends
  · rw [perform_succeed]
    simp [installed, h.erase hcaller]
  · -- Failing and giving up free the gate in the same way.
    simp [perform_fail, freed, h.erase hcaller]
  · simp [perform_abandon, freed, h.erase hcaller]

/-- Every move that can happen keeps the flag. -/
theorem Flagged.after (h : Flagged s) {m : Move κ} (hcan : m.canHappen s = true) :
    Flagged (m.perform s).state := by
  cases hends : m.ends? with
  | some caller =>
    have hcaller : caller ∈ s.inFlight := by simpa [Move.canHappen, hends] using hcan
    obtain ⟨hnone, hflag⟩ := h.ended hcaller hends
    simp [Flagged, hnone, hflag]
  | none =>
    -- What is left are an arrival and the moves that touch no attempt.
    cases m with
    | arrive caller =>
      obtain ⟨reply, events, -, hstays | ⟨hidle, hbegun⟩⟩ := arrive_cases caller s
      · rw [hstays]
        exact h
      · -- At an idle gate no attempt is in flight, so the new one is the only one.
        have hnone : s.inFlight = [] := by simpa [Flagged, hidle] using h
        simp [hbegun, Flagged, begun, hnone]
    | close =>
      rw [perform_close]
      simpa [Flagged, emptied] using h
    | alter number f =>
      rw [perform_alter]
      simpa [Flagged] using h
    | succeed _ _ => cases hends
    | fail _ _ => cases hends
    | abandon _ => cases hends

/-- Every run keeps the flag. -/
theorem flagged_play (moves : List (Move κ)) :
    Flagged (({} : GateHistory κ).play moves).system := by
  apply GateHistory.play_induction (P := fun h => Flagged h.system)
  · intro h m hcan hflag
    exact hflag.after hcan
  · rfl

/-! ## What callers get -/

/-- What a caller gets at a gate with at most one attempt in flight, and what the end of that
attempt leaves. -/
structure OneAttempt (s : ConnectorGate κ) : Prop where
  atMostOne : s.inFlight.length ≤ 1
  /-- The flag is set exactly while an attempt is in flight. -/
  flag : s.gate.connecting = true ↔ s.inFlight ≠ []
  /-- A live connection is served, and nothing changes. -/
  served : ∀ caller number, s.gate.held = some number → s.isLive number = true →
    ((Move.arrive caller).perform s).answer = .ok (some (.ok number)) ∧
      ((Move.arrive caller).perform s).state = s
  /-- A caller who comes during an attempt is turned away, and nothing changes. -/
  turnedAway : ∀ caller, s.isConnected = false → s.inFlight ≠ [] →
    ((Move.arrive caller).perform s).answer = .ok (some (.error .alreadyConnecting)) ∧
      ((Move.arrive caller).perform s).state = s
  /-- Any other caller starts an attempt and nothing else. -/
  starts : ∀ caller, s.isConnected = false → s.inFlight = [] →
    ((Move.arrive caller).perform s).answer = .ok none ∧
      ((Move.arrive caller).perform s).state = s.begun caller
  /-- However the attempt ends, the next caller without a live connection starts another. -/
  released : ∀ (m : Move κ) (caller next : Caller), m.ends? = some caller → caller ∈ s.inFlight →
    (m.perform s).state.gate.connecting = false ∧ (m.perform s).state.inFlight = [] ∧
      ((m.perform s).state.isConnected = false →
        ((Move.arrive next).perform (m.perform s).state).answer = .ok none ∧
          ((Move.arrive next).perform (m.perform s).state).state = (m.perform s).state.begun next)
  /-- An attempt that comes to nothing frees the gate and does nothing else. -/
  harmless : ∀ (m : Move κ) (caller : Caller), m.ends? = some caller → m.successes = 0 →
    caller ∈ s.inFlight →
      (m.perform s).state =
        { s with gate := { s.gate with connecting := false }, inFlight := [] }

/-- While no attempt is in flight a caller without a live connection starts one. -/
theorem Flagged.starts (h : Flagged s) (caller : Caller) (hdead : s.isConnected = false)
    (hnone : s.inFlight = []) :
    ((Move.arrive caller).perform s).answer = .ok none ∧
      ((Move.arrive caller).perform s).state = s.begun caller := by
  have hidle : s.gate.connecting = false := by simpa [hnone] using h.connecting_iff
  rw [arrive_of_idle caller hdead hidle]
  exact ⟨rfl, rfl⟩

/-- An attempt that comes to nothing leaves everything but itself as it was. -/
theorem Flagged.harmless (h : Flagged s) {m : Move κ} {caller : Caller}
    (hends : m.ends? = some caller) (hnothing : m.successes = 0) (hcaller : caller ∈ s.inFlight) :
    (m.perform s).state =
      { s with gate := { s.gate with connecting := false }, inFlight := [] } := by
  obtain ⟨connection, rfl⟩ | ⟨cause, rfl⟩ | rfl := Move.ends_cases hends
  · -- A success brings something.
    simp [Move.successes] at hnothing
  · simp [perform_fail, freed, h.erase hcaller]
  · simp [perform_abandon, freed, h.erase hcaller]

/-- A gate whose flag is kept has one attempt at most. -/
theorem Flagged.oneAttempt (h : Flagged s) : OneAttempt s where
  atMostOne := by
    rw [h]
    exact s.gate.connecting.toNat_le
  flag := h.connecting_iff
  served caller number hheld hlive := by
    rw [arrive_of_live caller hheld hlive]
    exact ⟨rfl, rfl⟩
  turnedAway caller hdead hsome := by
    rw [arrive_of_busy caller hdead (h.connecting_iff.mpr hsome)]
    exact ⟨rfl, rfl⟩
  starts := h.starts
  released m caller next hends hcaller := by
    obtain ⟨hnone, hflag⟩ := h.ended hcaller hends
    have hafter : Flagged (m.perform s).state := by simp [Flagged, hnone, hflag]
    exact ⟨hflag, hnone, fun hdead => hafter.starts next hdead hnone⟩
  harmless m caller hends hnothing hcaller := h.harmless hends hnothing hcaller

/-- After every run there is one attempt at most, a caller is served, turned away or makes that
attempt, and however it ends the next caller may make another. -/
theorem oneAttempt_of_run (moves : List (Move κ)) :
    OneAttempt (({} : GateHistory κ).play moves).system :=
  (flagged_play moves).oneAttempt

/-- An attempt fails and the next one succeeds; then the link goes down, a task makes a third
attempt and the gate is closed meanwhile. -/
def contestedMoves : List (Move ScriptedConnection) :=
  [.arrive .background, .arrive (.task 1), .fail .background .notConnected, .arrive (.task 1),
    .succeed (.task 1) {}, .alter 1 ({ · with up := false }), .arrive (.task 2), .close]

/-- The third attempt is in flight, another caller is turned away, and once the attempt is given up
that caller starts the fourth. -/
theorem oneAttempt_of_run_contested :
    (({} : GateHistory ScriptedConnection).play contestedMoves).system.inFlight = [.task 2] ∧
      ((Move.arrive (.task 3)).perform
        (({} : GateHistory ScriptedConnection).play contestedMoves).system).answer =
          .ok (some (.error .alreadyConnecting)) ∧
      ((Move.arrive (.task 3)).perform ((Move.abandon (.task 2)).perform
        (({} : GateHistory ScriptedConnection).play contestedMoves).system).state).answer =
          .ok none :=
  ⟨by decide,
    ((oneAttempt_of_run contestedMoves).turnedAway (.task 3) (by decide) (by decide)).1,
    (((oneAttempt_of_run contestedMoves).released (.abandon (.task 2)) (.task 2) (.task 3) rfl
      (by decide)).2.2 (by decide)).1⟩

end ConnectorGate

end Guestbook
