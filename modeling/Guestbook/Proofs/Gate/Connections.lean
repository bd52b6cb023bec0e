import Guestbook.Gate.Rehearsal
import Guestbook.Proofs.Gate.Run

/-!
# Every connection is closed once

A connection leaves the slot of the gate in two ways: another one replaces it, or the gate is
closed. In both it is closed on the way out, and it never comes back. So a connection that was ever
made is either the held one, which the gate never closed, or was closed exactly once, whatever the
attempts in flight and the links did meanwhile.

## Main definitions
- `ConnectorGate.Accounted`: how often each connection was closed
- `GateHistory.ClosedOnce`: no connection leaks and none is closed twice

## Main statements
- `Accounted.after`: every move keeps the account
- `closedOnce_of_run`: no run leaks a connection or closes one twice
-/

namespace Guestbook

namespace ConnectorGate

variable {κ : Type} {s : ConnectorGate κ}

/-! ## Finding connections by number -/

@[simp] theorem link?_zero : s.link? 0 = none := rfl

@[simp] theorem link?_succ (index : Nat) : s.link? (index + 1) = s.links[index]? := by
  simp [link?]

theorem link?_modifyLink (number other : Nat) (f : Link κ → Link κ) :
    (s.modifyLink number f).link? other =
      if number = other then (s.link? other).map f else s.link? other := by
  cases number with
  | zero =>
    -- No connection has the number zero, so nothing changes.
    cases other <;> simp [modifyLink]
  | succ index =>
    cases other with
    | zero => simp
    | succ j =>
      by_cases heq : index = j <;> simp [modifyLink, heq]

@[simp] theorem length_links_modifyLink (number : Nat) (f : Link κ → Link κ) :
    (s.modifyLink number f).links.length = s.links.length := by
  unfold modifyLink
  split <;> simp

/-- A new connection has the next number, and the others keep theirs. -/
theorem link?_installed (caller : Caller) (connection : κ) (number : Nat) :
    (s.installed caller connection).link? number =
      if number = s.links.length + 1 then some { connection } else s.link? number := by
  cases number with
  | zero => simp
  | succ index =>
    simp only [link?_succ, installed, Nat.add_right_cancel_iff]
    by_cases hold : index < s.links.length
    · rw [List.getElem?_append_left hold, if_neg (Nat.ne_of_lt hold)]
    · -- Beyond the connections made before there is only the new one.
      have hge : s.links.length ≤ index := Nat.le_of_not_lt hold
      rw [List.getElem?_append_right hge, List.getElem?_singleton, List.getElem?_eq_none hge]
      have hnew : index - s.links.length = 0 ↔ index = s.links.length := by omega
      simp only [hnew]

variable [Connection κ]

theorem link?_closeLink (dropped : Option Nat) (number : Nat) :
    (s.closeLink dropped).link? number =
      if dropped = some number then (s.link? number).map Link.close else s.link? number := by
  cases dropped with
  | none => simp [closeLink]
  | some n => simp [closeLink, link?_modifyLink]

@[simp] theorem length_links_closeLink (dropped : Option Nat) :
    (s.closeLink dropped).links.length = s.links.length := by
  cases dropped <;> simp [closeLink]

/-! ## The account -/

/-- The held connection was made and never closed; every other one was closed once. -/
structure Accounted (s : ConnectorGate κ) : Prop where
  held : ∀ number, s.gate.held = some number → ∃ link, s.link? number = some link
  closes : ∀ number link, s.link? number = some link →
    link.closes = if s.gate.held = some number then 0 else 1

/-- Once the held connection is closed too, every connection was closed once. -/
theorem Accounted.closes_closeHeld (h : Accounted s) {number : Nat} {link : Link κ}
    (hlink : (s.closeLink s.gate.held).link? number = some link) : link.closes = 1 := by
  rw [link?_closeLink] at hlink
  split at hlink
  · next hheld =>
    obtain ⟨before, hbefore, hclose⟩ := Option.map_eq_some_iff.mp hlink
    have hzero := h.closes number before hbefore
    rw [if_pos hheld] at hzero
    simp [← hclose, Link.close, hzero]
  · next hother => simpa [hother] using h.closes number link hlink

theorem Accounted.emptied (h : Accounted s) : Accounted (s.emptied.closeLink s.gate.held) where
  held number hheld := by simp [ConnectorGate.emptied] at hheld
  closes number link hlink := by
    have hsame : s.emptied.link? number = s.link? number := rfl
    rw [link?_closeLink, hsame, ← link?_closeLink] at hlink
    simpa [ConnectorGate.emptied] using h.closes_closeHeld hlink

/-- The new connection is held and not closed, and the one it replaces is closed like the others. -/
theorem Accounted.installed (h : Accounted s) (caller : Caller) (connection : κ) :
    Accounted ((s.installed caller connection).closeLink s.gate.held) := by
  have hheld : ((s.installed caller connection).closeLink s.gate.held).gate.held =
      some (s.links.length + 1) := by simp [ConnectorGate.installed]
  -- The replaced connection was made before, so the new one is not closed with it.
  have hreplaced : s.gate.held ≠ some (s.links.length + 1) := by
    intro hsame
    obtain ⟨link, hlink⟩ := h.held _ hsame
    simp at hlink
  have hnew : ((s.installed caller connection).closeLink s.gate.held).link? (s.links.length + 1) =
      some { connection } := by
    rw [link?_closeLink, if_neg hreplaced, link?_installed, if_pos rfl]
  constructor
  · intro number hnumber
    rw [hheld] at hnumber
    cases hnumber
    exact ⟨_, hnew⟩
  · intro number link hlink
    rw [hheld]
    by_cases hnumber : number = s.links.length + 1
    · subst hnumber
      rw [hnew] at hlink
      cases hlink
      simp
    · rw [link?_closeLink, link?_installed, if_neg hnumber, ← link?_closeLink] at hlink
      simpa [Ne.symm hnumber] using h.closes_closeHeld hlink

omit [Connection κ] in
/-- A connection that changes by itself is not closed by it. -/
theorem Accounted.altered (h : Accounted s) (number : Nat) (f : κ → κ) :
    Accounted (s.modifyLink number fun link => { link with connection := f link.connection }) := by
  constructor
  · intro other hheld
    rw [gate_modifyLink] at hheld
    obtain ⟨link, hlink⟩ := h.held other hheld
    rw [link?_modifyLink, hlink]
    split
    · exact ⟨_, rfl⟩
    · exact ⟨link, rfl⟩
  · intro other link hlink
    rw [gate_modifyLink]
    rw [link?_modifyLink] at hlink
    split at hlink
    · obtain ⟨before, hbefore, hchange⟩ := Option.map_eq_some_iff.mp hlink
      rw [← hchange]
      exact h.closes other before hbefore
    · exact h.closes other link hlink

/-- Every move keeps the account. -/
theorem Accounted.after (h : Accounted s) (m : Move κ) : Accounted (m.perform s).state := by
  cases m with
  | arrive caller =>
    -- An arrival leaves the slot and the connections alone, whether or not it starts an attempt.
    obtain ⟨reply, events, -, hstays | ⟨-, hbegun⟩⟩ := arrive_cases caller s
    · rw [hstays]
      exact h
    · rw [hbegun]
      exact ⟨h.held, h.closes⟩
  | succeed caller connection =>
    rw [perform_succeed]
    exact h.installed caller connection
  | fail caller cause => exact ⟨h.held, h.closes⟩
  | abandon caller => exact ⟨h.held, h.closes⟩
  | close =>
    rw [perform_close]
    exact h.emptied
  | alter number f =>
    rw [perform_alter]
    exact h.altered number f

/-- A move makes as many connections as it brings attempts to a good end. -/
theorem length_links_perform (m : Move κ) (s : ConnectorGate κ) :
    (m.perform s).state.links.length = s.links.length + m.successes := by
  cases m with
  | arrive caller =>
    obtain ⟨reply, events, -, hstays | ⟨-, hbegun⟩⟩ := arrive_cases caller s
    · simp [hstays, Move.successes]
    · simp [hbegun, begun, Move.successes]
  | succeed caller connection => simp [perform_succeed, ConnectorGate.installed, Move.successes]
  | fail caller cause => rfl
  | abandon caller => rfl
  | close => simp [perform_close, ConnectorGate.emptied, Move.successes]
  | alter number f => simp [perform_alter, Move.successes]

end ConnectorGate

/-! ## Along a run -/

namespace GateHistory

open ConnectorGate

variable {κ : Type}

/-- No connection leaked and none was closed twice. -/
structure ClosedOnce (h : GateHistory κ) : Prop where
  /-- The connections are those of the attempts that succeeded. -/
  made : h.system.links.length = h.successes
  /-- What is held was made, and the gate never closed it. -/
  held : ∀ number, h.system.gate.held = some number →
    ∃ link, h.system.link? number = some link ∧ link.closes = 0
  /-- What is no longer held was closed exactly once. -/
  dropped : ∀ number link, h.system.link? number = some link → h.system.gate.held ≠ some number →
    link.closes = 1
  /-- What was never closed is in the slot. -/
  unclosed : ∀ number link, h.system.link? number = some link → link.closes = 0 →
    h.system.gate.held = some number
  /-- At most one connection was never closed. -/
  atMostOne : ∀ first second one other, h.system.link? first = some one → one.closes = 0 →
    h.system.link? second = some other → other.closes = 0 → first = second

theorem ClosedOnce.of_accounted {h : GateHistory κ}
    (hmade : h.system.links.length = h.successes) (haccount : Accounted h.system) :
    h.ClosedOnce := by
  have hunclosed : ∀ number link, h.system.link? number = some link → link.closes = 0 →
      h.system.gate.held = some number := by
    intro number link hlink hzero
    have hcloses := haccount.closes number link hlink
    rw [hzero] at hcloses
    split at hcloses
    · assumption
    · contradiction
  constructor
  · exact hmade
  · intro number hheld
    obtain ⟨link, hlink⟩ := haccount.held number hheld
    exact ⟨link, hlink, by rw [haccount.closes number link hlink, if_pos hheld]⟩
  · intro number link hlink hnot
    rw [haccount.closes number link hlink, if_neg hnot]
  · exact hunclosed
  · intro first second one other hone hzero hother hzero'
    have hfirst := hunclosed first one hone hzero
    have hsecond := hunclosed second other hother hzero'
    exact Option.some.inj (hfirst.symm.trans hsecond)

variable [Connection κ]

/-- After every run each connection ever made is held and was never closed, or was closed exactly
once. -/
theorem closedOnce_of_run (moves : List (Move κ)) :
    (({} : GateHistory κ).play moves).ClosedOnce := by
  have hmade : (({} : GateHistory κ).play moves).system.links.length =
      (({} : GateHistory κ).play moves).successes := by
    apply play_induction (P := fun h => h.system.links.length = h.successes)
    · intro h m hcan hmade
      simp [after, length_links_perform, hmade]
    · rfl
  have haccount : Accounted (({} : GateHistory κ).play moves).system := by
    apply play_induction (P := fun h => Accounted h.system)
    · intro h m hcan haccount
      exact haccount.after m
    · exact ⟨by simp, by simp [link?]⟩
  exact .of_accounted hmade haccount

/-- A link looks dead and comes back while its replacement is being made, and a second replacement
is being made while the gate is closed. -/
def replacingMoves : List (Move ScriptedConnection) :=
  [.arrive .background, .succeed .background {}, .alter 1 ({ · with up := false }),
    .arrive (.task 1), .alter 1 ({ · with up := true }), .succeed (.task 1) {},
    .alter 2 ({ · with up := false }), .arrive (.task 2), .close, .succeed (.task 2) {}]

/-- The run makes three connections, closes the first two once each and holds the third. -/
theorem closedOnce_of_run_replacing :
    (({} : GateHistory ScriptedConnection).play replacingMoves).ClosedOnce ∧
      (({} : GateHistory ScriptedConnection).play replacingMoves).system.links.map Link.closes =
        [1, 1, 0] ∧
      (({} : GateHistory ScriptedConnection).play replacingMoves).system.gate.held = some 3 :=
  ⟨closedOnce_of_run replacingMoves, by decide, by decide⟩

end GateHistory

end Guestbook
