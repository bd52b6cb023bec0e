import Guestbook.Action

/-!
# What an action ends in

A specification of an action names what holds of its answer and state when it answers, and what
holds of its stop and state when it does not. `Outcome.Satisfies` is such a pair of postconditions
at one outcome; the rules below take it apart along the steps of an action, so a composed action is
specified from the specifications of its parts.

## Main definitions
- `Outcome.Satisfies`: an outcome meets one of two postconditions
- `Action.Preserves`: an action keeps a property of the state, however it ends
- `Action.StopsKeep`: an action keeps a property of the state if it stops

## Main statements
- `satisfies_bind`: a step and what follows it
- `satisfies_on`: an action on a part of the state
- `Satisfies.imp`: weaker postconditions
- `Preserves.bind`: what two steps keep, both in a row keep
- `andThen_assoc`, `andThen_answer`: actions are a lawful monad
- `state_bind_of_same`: what follows without a change of the state
-/

namespace Guestbook

namespace Outcome

variable {σ α : Type}

/-- The answer and the state satisfy `Q`, or the stop and the state satisfy `E`. -/
def Satisfies (o : Outcome σ α) (Q : α → σ → Prop) (E : Stop → σ → Prop) : Prop :=
  match o.answer with
  | .ok x => Q x o.state
  | .error why => E why o.state

variable {o : Outcome σ α} {Q Q' : α → σ → Prop} {E E' : Stop → σ → Prop}

/-- Postconditions may be weakened. -/
theorem Satisfies.imp (h : o.Satisfies Q E) (hQ : ∀ x s, Q x s → Q' x s)
    (hE : ∀ why s, E why s → E' why s) : o.Satisfies Q' E' := by
  unfold Satisfies at h ⊢
  split
  · next hanswer => exact hQ _ _ (by simpa only [hanswer] using h)
  · next hanswer => exact hE _ _ (by simpa only [hanswer] using h)

/-- An outcome that answers satisfies the first postcondition. -/
theorem Satisfies.of_ok {x : α} (h : o.Satisfies Q E) (hx : o.answer = .ok x) : Q x o.state := by
  simpa only [Satisfies, hx] using h

/-- An outcome that stops satisfies the second postcondition. -/
theorem Satisfies.of_error {why : Stop} (h : o.Satisfies Q E) (hwhy : o.answer = .error why) :
    E why o.state := by
  simpa only [Satisfies, hwhy] using h

/-- Two specifications of one outcome are met together. -/
theorem Satisfies.and (h : o.Satisfies Q E) (h' : o.Satisfies Q' E') :
    o.Satisfies (fun x s => Q x s ∧ Q' x s) fun why s => E why s ∧ E' why s := by
  unfold Satisfies at h h' ⊢
  split
  · next hanswer => exact ⟨by simpa only [hanswer] using h, by simpa only [hanswer] using h'⟩
  · next hanswer => exact ⟨by simpa only [hanswer] using h, by simpa only [hanswer] using h'⟩

/-- Of an outcome whose answer is known only the first postcondition is asked. -/
theorem satisfies_iff_of_ok {x : α} (hx : o.answer = .ok x) : o.Satisfies Q E ↔ Q x o.state := by
  simp only [Satisfies, hx]

/-- Of an outcome whose stop is known only the second postcondition is asked. -/
theorem satisfies_iff_of_error {why : Stop} (hwhy : o.answer = .error why) :
    o.Satisfies Q E ↔ E why o.state := by
  simp only [Satisfies, hwhy]

/-- A postcondition may speak of the answer of the outcome. -/
theorem Satisfies.with_answer (h : o.Satisfies Q E) :
    o.Satisfies (fun x s => Q x s ∧ o.answer = .ok x) E := by
  unfold Satisfies at h ⊢
  split
  · next hanswer => exact ⟨by simpa only [hanswer] using h, hanswer⟩
  · next hanswer => simpa only [hanswer] using h

/-- A postcondition may speak of why the outcome stopped. -/
theorem Satisfies.with_stop (h : o.Satisfies Q E) :
    o.Satisfies Q fun why s => E why s ∧ o.answer = .error why := by
  unfold Satisfies at h ⊢
  split
  · next hanswer => simpa only [hanswer] using h
  · next hanswer => exact ⟨by simpa only [hanswer] using h, hanswer⟩

/-- An outcome that cannot stop answers. -/
theorem Satisfies.answers (h : o.Satisfies Q E) (hE : ∀ why s, ¬ E why s) :
    ∃ x, o.answer = .ok x ∧ Q x o.state := by
  cases hx : o.answer with
  | ok x => exact ⟨x, rfl, h.of_ok hx⟩
  | error why => exact absurd (h.of_error hx) (hE why o.state)

/-- An outcome that cannot answer stops. -/
theorem Satisfies.stops (h : o.Satisfies Q E) (hQ : ∀ x s, ¬ Q x s) :
    ∃ why, o.answer = .error why ∧ E why o.state := by
  cases hx : o.answer with
  | ok x => exact absurd (h.of_ok hx) (hQ x o.state)
  | error why => exact ⟨why, rfl, h.of_error hx⟩

/-- A postcondition that does not depend on how the outcome ends holds of its state. -/
theorem Satisfies.state {P : σ → Prop} (h : o.Satisfies (fun _ s => P s) fun _ s => P s) :
    P o.state := by
  unfold Satisfies at h
  split at h <;> exact h

/-- What holds of its state an outcome satisfies however it ends. -/
theorem Satisfies.of_state {P : σ → Prop} (h : P o.state) :
    o.Satisfies (fun _ s => P s) fun _ s => P s := by
  unfold Satisfies
  split <;> exact h

end Outcome

namespace Action

open Outcome (Satisfies)

variable {σ τ α β : Type} {Q : β → σ → Prop} {R : α → σ → Prop} {E : Stop → σ → Prop}

/-! ## Laws -/

/-- Steps in a row are grouped in either way. -/
theorem andThen_assoc {γ : Type} (a : Action σ α) (f : α → Action σ β) (g : β → Action σ γ) :
    andThen (andThen a f) g = andThen a fun x => andThen (f x) g := by
  funext s
  unfold andThen
  rcases a s with ⟨why | x, t, events⟩
  · rfl
  · dsimp only
    rcases f x t with ⟨why | y, u, events'⟩
    · rfl
    · -- The events come in the order of the steps.
      dsimp only
      rw [List.append_assoc]

theorem andThen_answer (a : Action σ α) : andThen a answer = a := by
  funext s
  unfold andThen answer
  rcases a s with ⟨why | x, t, events⟩
  · rfl
  · dsimp only
    rw [List.append_nil]

instance : LawfulMonad (Action σ) :=
  .mk' (Action σ) andThen_answer (fun _ _ => rfl) andThen_assoc

/-! ## Steps -/

@[simp] theorem satisfies_pure (x : α) (s : σ) :
    ((pure x : Action σ α) s).Satisfies R E ↔ R x s := Iff.rfl

/-- A step is followed by what its answer leads to. -/
@[simp] theorem satisfies_bind (a : Action σ α) (next : α → Action σ β) (s : σ) :
    ((a >>= next) s).Satisfies Q E ↔
      (a s).Satisfies (fun x t => (next x t).Satisfies Q E) E := by
  show (andThen a next s).Satisfies Q E ↔ _
  unfold andThen Satisfies
  rcases a s with ⟨x | why, t, events⟩ <;> exact Iff.rfl

/-- What follows an answer ends the action. -/
theorem bind_of_ok {a : Action σ α} {next : α → Action σ β} {s : σ} {x : α}
    (h : (a s).answer = .ok x) :
    ((a >>= next) s).answer = (next x (a s).state).answer ∧
      ((a >>= next) s).state = (next x (a s).state).state := by
  show (andThen a next s).answer = _ ∧ (andThen a next s).state = _
  unfold andThen
  generalize a s = o at h ⊢
  obtain ⟨answer, t, events⟩ := o
  obtain rfl : answer = .ok x := h
  exact ⟨rfl, rfl⟩

/-- Nothing follows a stop. -/
theorem bind_of_error {a : Action σ α} {next : α → Action σ β} {s : σ} {why : Stop}
    (h : (a s).answer = .error why) :
    ((a >>= next) s).answer = .error why ∧ ((a >>= next) s).state = (a s).state := by
  show (andThen a next s).answer = _ ∧ (andThen a next s).state = _
  unfold andThen
  generalize a s = o at h ⊢
  obtain ⟨answer, t, events⟩ := o
  obtain rfl : answer = .error why := h
  exact ⟨rfl, rfl⟩

theorem answer_attempt (a : Action σ α) (s : σ) :
    (attempt a s).answer = match (a s).answer with
      | .ok x => .ok (.ok x)
      | .error (.error cause) => .ok (.error cause)
      | .error why => .error why := by
  unfold attempt
  rcases a s with ⟨(_ | _ | _) | x, t, events⟩ <;> rfl

theorem state_attempt (a : Action σ α) (s : σ) : (attempt a s).state = (a s).state := by
  unfold attempt
  rcases a s with ⟨(_ | _ | _) | x, t, events⟩ <;> rfl

/-- What follows an action leaves the state as it is, if it changes no state. -/
theorem state_bind_of_same {a : Action σ α} {next : α → Action σ β}
    (hnext : ∀ x t, (next x t).state = t) (s : σ) : ((a >>= next) s).state = (a s).state := by
  cases h : (a s).answer with
  | ok x => rw [(bind_of_ok h).2, hnext]
  | error why => rw [(bind_of_error h).2]

/-- Putting an answer into words does nothing else. -/
theorem state_bind_pure (a : Action σ α) (f : α → β) (s : σ) :
    ((a >>= fun x => pure (f x)) s).state = (a s).state :=
  state_bind_of_same (fun _ _ => rfl) s

theorem answer_bind_pure (a : Action σ α) (f : α → β) (s : σ) :
    ((a >>= fun x => pure (f x)) s).answer = (a s).answer.map f := by
  cases h : (a s).answer with
  | ok x => rw [(bind_of_ok h).1]; rfl
  | error why => rw [(bind_of_error h).1]; rfl

@[simp] theorem satisfies_fail (cause : BoardError) (s : σ) :
    ((fail cause : Action σ α) s).Satisfies R E ↔ E (.error cause) s := Iff.rfl

@[simp] theorem satisfies_state {Q : σ → σ → Prop} (s : σ) :
    ((state : Action σ σ) s).Satisfies Q E ↔ Q s s := Iff.rfl

@[simp] theorem satisfies_report {Q : Unit → σ → Prop} (event : Event) (s : σ) :
    ((report event : Action σ Unit) s).Satisfies Q E ↔ Q () s := Iff.rfl

@[simp] theorem satisfies_reporting (x : α × List Event) (s : σ) :
    ((reporting x : Action σ α) s).Satisfies R E ↔ R x.1 s := Iff.rfl

@[simp] theorem satisfies_orFail_ok (x : α) (s : σ) :
    ((orFail (.ok x) : Action σ α) s).Satisfies R E ↔ R x s := Iff.rfl

@[simp] theorem satisfies_orFail_error (cause : BoardError) (s : σ) :
    ((orFail (.error cause) : Action σ α) s).Satisfies R E ↔ E (.error cause) s := Iff.rfl

@[simp] theorem satisfies_orFault_ok (x : α) (s : σ) :
    ((orFault (.ok x) : Action σ α) s).Satisfies R E ↔ R x s := Iff.rfl

@[simp] theorem satisfies_orFault_error (fault : Fault) (s : σ) :
    ((orFault (.error fault) : Action σ α) s).Satisfies R E ↔ E (.fault fault) s := Iff.rfl

/-! ## Larger steps -/

/-- An attempt answers a failure and stops at anything else. -/
@[simp] theorem satisfies_attempt {Q : Except BoardError α → σ → Prop} (a : Action σ α) (s : σ) :
    ((attempt a) s).Satisfies Q E ↔
      (a s).Satisfies (fun x t => Q (.ok x) t) fun why t =>
        match why with
        | .error cause => Q (.error cause) t
        | why => E why t := by
  unfold attempt Satisfies
  rcases a s with ⟨(_ | _ | _) | x, t, events⟩ <;> exact Iff.rfl

/-- An action on a part of the state is specified on that part. -/
@[simp] theorem satisfies_on (get : σ → τ) (set : τ → σ → σ) (a : Action τ α) (s : σ) :
    ((a.on get set) s).Satisfies R E ↔
      (a (get s)).Satisfies (fun x t => R x (set t s)) fun why t => E why (set t s) := Iff.rfl

/-! ## What an action keeps -/

/-- An action keeps a property of the state, however it ends. -/
def Preserves (P : σ → Prop) (a : Action σ α) : Prop := ∀ s, P s → P (a s).state

variable {P : σ → Prop}

theorem preserves_pure (x : α) : Preserves P (pure x : Action σ α) := fun _ hs => hs

theorem Preserves.bind {a : Action σ α} {next : α → Action σ β} (ha : Preserves P a)
    (hnext : ∀ x, Preserves P (next x)) : Preserves P (a >>= next) := by
  intro s hs
  have hmid := ha s hs
  show P (andThen a next s).state
  unfold andThen
  split
  · next x t events hout =>
    rw [hout] at hmid
    exact hnext x t hmid
  · next why t events hout =>
    rw [hout] at hmid
    exact hmid

/-- What is kept holds of the state in which an action answers and of that in which it stops. -/
theorem Preserves.satisfies {a : Action σ α} (ha : Preserves P a) {s : σ} (hs : P s) :
    (a s).Satisfies (fun _ t => P t) fun _ t => P t :=
  .of_state (ha s hs)

/-- What holds after an action whether it answers or stops is kept. -/
theorem Preserves.of_satisfies {a : Action σ α}
    (ha : ∀ s, P s → (a s).Satisfies (fun _ t => P t) fun _ t => P t) : Preserves P a :=
  fun s hs => (ha s hs).state

theorem Preserves.attempt {a : Action σ α} (ha : Preserves P a) : Preserves P a.attempt := by
  apply Preserves.of_satisfies
  intro s hs
  rw [satisfies_attempt]
  apply (ha.satisfies hs).imp
  · intro x t ht
    exact ht
  · intro why t ht
    cases why <;> exact ht

theorem preserves_stop (why : Stop) : Preserves P (stop why : Action σ α) := fun _ hs => hs

theorem preserves_fail (cause : BoardError) : Preserves P (fail cause : Action σ α) :=
  fun _ hs => hs

theorem preserves_state : Preserves P (state : Action σ σ) := fun _ hs => hs

theorem preserves_report (event : Event) : Preserves P (report event : Action σ Unit) :=
  fun _ hs => hs

theorem preserves_reporting (x : α × List Event) : Preserves P (reporting x : Action σ α) :=
  fun _ hs => hs

theorem preserves_orFail (x : Except BoardError α) : Preserves P (orFail x : Action σ α) := by
  cases x <;> exact fun _ hs => hs

theorem preserves_orFault (x : Except Fault α) : Preserves P (orFault x : Action σ α) := by
  cases x <;> exact fun _ hs => hs

/-! ## What an action keeps when it stops -/

/-- An action that stops keeps a property of the state; one that answers need not. -/
def StopsKeep (P : σ → Prop) (a : Action σ α) : Prop :=
  ∀ s, P s → (a s).Satisfies (fun _ _ => True) fun _ t => P t

theorem Preserves.stopsKeep {a : Action σ α} (ha : Preserves P a) : StopsKeep P a :=
  fun _ hs => (ha.satisfies hs).imp (fun _ _ _ => trivial) fun _ _ => id

/-- What is kept up to the last step is kept when the last step stops. -/
theorem Preserves.bind_stopsKeep {a : Action σ α} {next : α → Action σ β} (ha : Preserves P a)
    (hnext : ∀ x, StopsKeep P (next x)) : StopsKeep P (a >>= next) := by
  intro s hs
  rw [satisfies_bind]
  exact (ha.satisfies hs).imp (fun x t ht => hnext x t ht) fun _ _ => id

/-- Nothing stops after the last step. -/
theorem StopsKeep.bind_pure {a : Action σ α} (ha : StopsKeep P a) (f : α → β) :
    StopsKeep P (a >>= fun x => pure (f x)) := by
  intro s hs
  rw [satisfies_bind]
  exact (ha s hs).imp (fun _ _ _ => trivial) fun _ _ => id

end Action

end Guestbook
