import Guestbook.Gate.Wait
import Guestbook.Proofs.Gate.Attempts

/-!
# Readiness is for good

The first attempt that succeeds makes the gate ready, and nothing takes that back: neither closing
the gate, nor a failed attempt, nor the loss of the link. It is announced once; what every later
success announces is that the connection was re-established. The phase of the gate follows from the
signal and from the attempt in flight, and whoever waits for readiness on a ready gate need not
wait.

## Main definitions
- `announced`, `announcement`: what was said about readiness, and what a success says
- `Runtime.PollsFirst`: what is asked of a run-time
- `GateHistory.OneShot`: how signal, announcements, phase and waits hang together

## Main statements
- `Runtime.awaitReady_of_ready`: a wait on a ready gate succeeds
- `signalled_play`: every run keeps the signal
- `oneShot_of_run`: every run leaves a gate that became ready once and stays so
-/

namespace Guestbook

/-! ## Waiting on a ready gate -/

namespace Runtime

/-- A run-time polls what it waits for before it looks at the time: a wait for a value that is true
ends at its first poll, and a future that ends at its first poll ends in time, however short the
time is. -/
structure PollsFirst (r : Runtime) : Prop where
  waitFor_true : ∀ value : Nat → Bool, value 0 = true → r.waitFor value 0 = some (.ok ())
  within_first : ∀ {α : Type} (timeout : Duration) (future : Future α) (x : α),
    future 0 = some x → r.within timeout future = some x

theorem awaitReady_of_ready {r : Runtime} (h : r.PollsFirst) (timeout : Duration)
    {ready : Nat → Bool} (hready : ready 0 = true) : r.awaitReady timeout ready = .ok () := by
  have hfirst := h.within_first timeout (r.waitFor ready) (.ok ()) (h.waitFor_true ready hready)
  simp [awaitReady, hfirst]

theorem pollsFirst_ticking : ticking.PollsFirst where
  waitFor_true value htrue := by simp [ticking, htrue]
  within_first timeout future x hfirst := by
    simp [ticking, List.range_succ_eq_map, List.findSome?_cons, hfirst]

/-- On a gate that nobody else uses meanwhile, the wait is the one of the gate. -/
theorem awaitReady_ticking {κ : Type} (timeout : Duration) (g : Gate κ) :
    Action.orFail (ticking.awaitReady timeout fun _ => g.ready) g = Gate.awaitReady timeout g := by
  cases hready : g.ready with
  | true =>
    rw [awaitReady_of_ready pollsFirst_ticking timeout rfl]
    simp [Action.orFail, Action.answer, Gate.awaitReady, hready]
  | false =>
    have hnever : (List.range (timeout.nanos + 1)).findSome?
        (fun _ => (none : Option (Except Unit Unit))) = none := by simp
    simp only [awaitReady, ticking, Bool.false_eq_true, if_false, hnever]
    simp [Action.orFail, Action.fail, Action.stop, Gate.awaitReady, hready]

end Runtime

/-! ## What is said about readiness -/

/-- What the success with a number says, counting from zero. -/
def announcement (number : Nat) : String :=
  if number = 0 then "store connection ready" else "store connection re-established"

/-- What was said about readiness. -/
def announced (events : List Event) : List String :=
  (events.map Event.text).filter fun text => text = announcement 0 ∨ text = announcement 1

theorem announced_append (events rest : List Event) :
    announced (events ++ rest) = announced events ++ announced rest := by
  simp [announced]

theorem announced_dropEvents {κ : Type} (g : Gate κ) : announced g.dropEvents = [] := by
  unfold Gate.dropEvents
  split
  · decide
  · rfl

theorem announced_reports (caller : Caller) (reply : Option (Except BoardError Nat)) :
    announced (caller.reports reply) = [] := by
  unfold Caller.reports
  split
  · split
    · simp [announced, Event.text, announcement]
    · rfl
  · rfl

theorem announced_installEvents {κ : Type} (g : Gate κ) :
    announced g.installEvents = [announcement g.ready.toNat] := by
  unfold Gate.installEvents
  rw [announced_append]
  cases g.held <;> cases g.ready <;> simp [announced, Event.text, announcement]

/-! ## The signal along a run -/

namespace GateHistory

open ConnectorGate

variable {κ : Type}

/-- The gate is ready once an attempt succeeded, and each success was announced in its turn. -/
structure Signalled (h : GateHistory κ) : Prop where
  ready_iff : h.system.gate.ready = true ↔ 1 ≤ h.successes
  announced : announced h.events = (List.range h.successes).map announcement

variable [Connection κ]

/-- A move that brings no attempt to a good end leaves the signal alone and announces nothing. -/
theorem signal_of_no_success {m : Move κ} (hm : m.successes = 0) (s : ConnectorGate κ) :
    (m.perform s).state.gate.ready = s.gate.ready ∧ announced (m.perform s).events = [] := by
  cases m with
  | arrive caller =>
    obtain ⟨reply, events, hevents, harrive⟩ := arrive_cases caller s
    -- What an arrival reports is about the link and the caller, not about readiness.
    have hquiet : announced events = [] := by
      obtain rfl | rfl := hevents
      · rfl
      · simp [announced_append, announced_dropEvents, announced_reports]
    obtain hstays | ⟨-, hbegun⟩ := harrive
    · simp [hstays, hquiet]
    · simp [hbegun, begun, hquiet]
  | succeed caller connection => simp [Move.successes] at hm
  | fail caller cause =>
    rw [perform_fail]
    refine ⟨rfl, ?_⟩
    rw [← List.singleton_append, announced_append, announced_reports]
    simp [announced, Event.text, announcement]
  | abandon caller => exact ⟨rfl, rfl⟩
  | close =>
    rw [perform_close]
    refine ⟨by simp [emptied], ?_⟩
    cases s.gate.held <;> simp [announced, Event.text, announcement]
  | alter number f =>
    rw [perform_alter]
    exact ⟨by simp, rfl⟩

omit [Connection κ] in
/-- What a success says depends on whether the gate was ready, so on whether it is the first. -/
theorem Signalled.announcement_ready {h : GateHistory κ} (hsignal : h.Signalled) :
    announcement h.system.gate.ready.toNat = announcement h.successes := by
  have hiff := hsignal.ready_iff
  cases hready : h.system.gate.ready with
  | true =>
    have hpos : h.successes ≠ 0 := Nat.ne_of_gt (hiff.mp hready)
    simp [announcement, hpos]
  | false =>
    have hzero : h.successes = 0 := by simpa [hready] using hiff
    rw [hzero]
    rfl

theorem Signalled.after_of_no_success {h : GateHistory κ} (hsignal : h.Signalled) {m : Move κ}
    (hm : m.successes = 0) : (h.after m).Signalled := by
  obtain ⟨hready, hquiet⟩ := signal_of_no_success hm h.system
  constructor
  · simpa [GateHistory.after, hready, hm] using hsignal.ready_iff
  · simpa [GateHistory.after, announced_append, hquiet, hm] using hsignal.announced

/-- Every move keeps the signal. -/
theorem Signalled.after {h : GateHistory κ} (hsignal : h.Signalled) (m : Move κ) :
    (h.after m).Signalled := by
  cases m with
  | succeed caller connection =>
    constructor
    · simp [GateHistory.after, perform_succeed, installed, Move.successes]
    · simp [GateHistory.after, perform_succeed, announced_append, announced_installEvents,
        hsignal.announced, hsignal.announcement_ready, Move.successes, List.range_succ]
  | arrive caller => exact hsignal.after_of_no_success rfl
  | fail caller cause => exact hsignal.after_of_no_success rfl
  | abandon caller => exact hsignal.after_of_no_success rfl
  | close => exact hsignal.after_of_no_success rfl
  | alter number f => exact hsignal.after_of_no_success rfl

/-- Every run keeps the signal. -/
theorem Signalled.play {h : GateHistory κ} (hsignal : h.Signalled) (moves : List (Move κ)) :
    (h.play moves).Signalled := by
  apply play_induction (P := Signalled)
  · intro h m hcan hsignal
    exact hsignal.after m
  · exact hsignal

theorem successes_le_play (h : GateHistory κ) (moves : List (Move κ)) :
    h.successes ≤ (h.play moves).successes := by
  apply play_induction (P := fun later => h.successes ≤ later.successes)
  · intro later m hcan hle
    exact Nat.le_add_right_of_le hle
  · exact Nat.le_refl _

/-- Once ready, always ready. -/
theorem Signalled.ready_play {h : GateHistory κ} (hsignal : h.Signalled)
    (hready : h.system.gate.ready = true) (moves : List (Move κ)) :
    (h.play moves).system.gate.ready = true := by
  apply (hsignal.play moves).ready_iff.mpr
  calc 1 ≤ h.successes := hsignal.ready_iff.mp hready
    _ ≤ (h.play moves).successes := successes_le_play h moves

end GateHistory

/-! ## The phase -/

namespace Gate

variable {κ : Type} {g : Gate κ}

theorem phase_eq_connected_iff : g.phase = .connected ↔ g.ready = true := by
  cases hready : g.ready <;> cases hflag : g.connecting <;> simp [phase, hready, hflag]

theorem phase_eq_connecting_iff :
    g.phase = .connecting ↔ g.ready = false ∧ g.connecting = true := by
  cases hready : g.ready <;> cases hflag : g.connecting <;> simp [phase, hready, hflag]

theorem phase_eq_disconnected_iff :
    g.phase = .disconnected ↔ g.ready = false ∧ g.connecting = false := by
  cases hready : g.ready <;> cases hflag : g.connecting <;> simp [phase, hready, hflag]

end Gate

/-! ## One shot -/

namespace GateHistory

open ConnectorGate

variable {κ : Type} [Connection κ]

/-- A gate that becomes ready with the first success and stays so whatever comes later. -/
structure OneShot (h : GateHistory κ) (r : Runtime) : Prop where
  /-- The gate is ready exactly if an attempt succeeded. -/
  ready_iff : h.system.gate.ready = true ↔ 1 ≤ h.successes
  /-- The first success was announced as the first, and every later one as a later one. -/
  announced : announced h.events = (List.range h.successes).map announcement
  connected_iff : h.system.gate.phase = .connected ↔ h.system.gate.ready = true
  connecting_iff : h.system.gate.phase = .connecting ↔
    h.system.gate.ready = false ∧ h.system.inFlight ≠ []
  disconnected_iff : h.system.gate.phase = .disconnected ↔
    h.system.gate.ready = false ∧ h.system.inFlight = []
  /-- Nothing that happens later takes readiness back. -/
  stays : h.system.gate.ready = true → ∀ later : List (Move κ),
    (h.play later).system.gate.ready = true ∧ (h.play later).system.gate.phase = .connected
  /-- A wait that begins later succeeds, however short its timeout is and whatever the signal shows
  at its later polls. -/
  waits : h.system.gate.ready = true → ∀ (later : List (Move κ)) (timeout : Duration)
    (ready : Nat → Bool), ready 0 = (h.play later).system.gate.ready →
      r.awaitReady timeout ready = .ok ()
  /-- So does the wait of a gate that nobody else uses meanwhile. -/
  waitsAlone : h.system.gate.ready = true → ∀ (later : List (Move κ)) (timeout : Duration),
    Gate.awaitReady timeout (h.play later).system.gate = ⟨.ok (), (h.play later).system.gate, []⟩

/-- After every run the gate is ready if and only if an attempt succeeded, said so once, and stays
ready. -/
theorem oneShot_of_run {r : Runtime} (hr : r.PollsFirst) (moves : List (Move κ)) :
    (({} : GateHistory κ).play moves).OneShot r := by
  have hsignal : (({} : GateHistory κ).play moves).Signalled :=
    Signalled.play ⟨by simp, rfl⟩ moves
  have hflag := flagged_play (κ := κ) moves
  constructor
  · exact hsignal.ready_iff
  · exact hsignal.announced
  · exact Gate.phase_eq_connected_iff
  · rw [Gate.phase_eq_connecting_iff, hflag.connecting_iff]
  · rw [Gate.phase_eq_disconnected_iff, ← Bool.not_eq_true, ← Bool.not_eq_true,
      hflag.connecting_iff]
    simp
  · intro hready later
    have hlater := hsignal.ready_play hready later
    exact ⟨hlater, Gate.phase_eq_connected_iff.mpr hlater⟩
  · intro hready later timeout ready hnow
    exact Runtime.awaitReady_of_ready hr timeout (hnow.trans (hsignal.ready_play hready later))
  · intro hready later timeout
    have hlater := hsignal.ready_play hready later
    rw [← Runtime.awaitReady_ticking,
      Runtime.awaitReady_of_ready Runtime.pollsFirst_ticking _ hlater]
    rfl

/-- The first attempt fails, the second is given up, the third succeeds; the gate is closed, another
attempt fails, the next succeeds, and its link goes down. -/
def troubledMoves : List (Move ScriptedConnection) :=
  [.arrive .background, .fail .background .notConnected, .arrive (.task 1), .abandon (.task 1),
    .arrive .direct, .succeed .direct {}, .close, .arrive .direct, .fail .direct .notConnected,
    .arrive (.task 2), .succeed (.task 2) {}, .alter 2 ({ · with up := false })]

/-- Two successes make two announcements, and a wait without any time ends well. -/
theorem oneShot_of_run_troubled :
    Runtime.ticking.PollsFirst ∧
      announced (({} : GateHistory ScriptedConnection).play troubledMoves).events =
        ["store connection ready", "store connection re-established"] ∧
      (({} : GateHistory ScriptedConnection).play troubledMoves).OneShot Runtime.ticking ∧
      Runtime.ticking.awaitReady ⟨0⟩ (fun _ => true) = .ok () :=
  have hshot := oneShot_of_run Runtime.pollsFirst_ticking troubledMoves
  ⟨Runtime.pollsFirst_ticking, hshot.announced.trans (by decide), hshot,
    hshot.waits (by decide) [] ⟨0⟩ (fun _ => true) (by decide)⟩

end GateHistory

end Guestbook
