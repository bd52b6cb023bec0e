import Guestbook.Proofs.Action

/-!
# Actions that run in step

Two actions on two states run in step if from states that are related they give the same answer,
stop for the same reason, and leave states that are related again. What they report may differ.
Composed actions run in step if their parts do. A part may also run in step up to a relation of
answers, if what follows makes no difference between related answers.

## Main definitions
- `Action.InStep`: two actions run in step
- `Action.InStepUpTo`: two actions run in step up to a relation of their answers

## Main statements
- `InStep.bind`, `InStep.attempt`: composed actions
- `InStep.on`: actions on parts of larger states
- `InStepUpTo.bind`: what follows related answers
-/

namespace Guestbook.Action

variable {σ τ σ' τ' α β : Type} {R : σ → τ → Prop} {S : α → β → Prop}

/-- From related states two actions give the same answer and leave related states. -/
def InStep (R : σ → τ → Prop) (a : Action σ α) (a' : Action τ α) : Prop :=
  ∀ s t, R s t → (a s).answer = (a' t).answer ∧ R (a s).state (a' t).state

/-! ## Up to a relation of answers -/

/-- From related states two actions give related answers, or stop for the same reason, and leave
related states. -/
def InStepUpTo (S : α → β → Prop) (R : σ → τ → Prop) (a : Action σ α) (a' : Action τ β) : Prop :=
  ∀ s t, R s t →
    (match (a s).answer, (a' t).answer with
      | .ok x, .ok y => S x y
      | .error why, .error why' => why = why'
      | _, _ => False) ∧ R (a s).state (a' t).state

theorem InStep.upTo {a : Action σ α} {a' : Action τ α} (ha : InStep R a a') :
    InStepUpTo Eq R a a' := by
  intro s t hst
  obtain ⟨hanswer, hstate⟩ := ha s t hst
  refine ⟨?_, hstate⟩
  rw [hanswer]
  cases (a' t).answer <;> rfl

theorem InStepUpTo.inStep {S : α → α → Prop} {a : Action σ α} {a' : Action τ α}
    (ha : InStepUpTo S R a a') (h : ∀ x y, S x y → x = y) : InStep R a a' := by
  intro s t hst
  obtain ⟨hanswer, hstate⟩ := ha s t hst
  refine ⟨?_, hstate⟩
  cases hx : (a s).answer <;> cases hy : (a' t).answer <;> rw [hx, hy] at hanswer
  · exact congrArg _ hanswer
  · exact hanswer.elim
  · exact hanswer.elim
  · exact congrArg _ (h _ _ hanswer)

theorem InStepUpTo.mono {S' : α → β → Prop} {a : Action σ α} {a' : Action τ β}
    (ha : InStepUpTo S R a a') (h : ∀ x y, S x y → S' x y) : InStepUpTo S' R a a' := by
  intro s t hst
  obtain ⟨hanswer, hstate⟩ := ha s t hst
  refine ⟨?_, hstate⟩
  cases hx : (a s).answer <;> cases hy : (a' t).answer <;> rw [hx, hy] at hanswer
  · exact hanswer
  · exact hanswer
  · exact hanswer
  · exact h _ _ hanswer

/-- Actions that answer run in step up to what their postconditions relate. -/
theorem InStepUpTo.of_satisfies {a : Action σ α} {a' : Action τ β} {Q : σ → α → σ → Prop}
    {Q' : τ → β → τ → Prop}
    (ha : ∀ s t, R s t → (a s).Satisfies (Q s) fun _ _ => False)
    (ha' : ∀ s t, R s t → (a' t).Satisfies (Q' t) fun _ _ => False)
    (hrel : ∀ s t, R s t → ∀ x s' y t', Q s x s' → Q' t y t' → S x y ∧ R s' t') :
    InStepUpTo S R a a' := by
  intro s t hst
  obtain ⟨x, hx, hQ⟩ := (ha s t hst).answers fun _ _ => id
  obtain ⟨y, hy, hQ'⟩ := (ha' s t hst).answers fun _ _ => id
  rw [hx, hy]
  exact hrel s t hst x _ y _ hQ hQ'

/-- After related answers both go on in step; after the same stop neither goes on. -/
theorem InStepUpTo.bind {γ : Type} {a : Action σ α} {a' : Action τ β} {next : α → Action σ γ}
    {next' : β → Action τ γ} (ha : InStepUpTo S R a a')
    (hnext : ∀ x y, S x y → InStep R (next x) (next' y)) :
    InStep R (a >>= next) (a' >>= next') := by
  intro s t hst
  obtain ⟨hanswer, hstate⟩ := ha s t hst
  cases hx : (a s).answer with
  | ok x =>
    cases hy : (a' t).answer with
    | ok y =>
      rw [hx, hy] at hanswer
      have h := @bind_of_ok _ _ _ a next s x hx
      have h' := @bind_of_ok _ _ _ a' next' t y hy
      rw [h.1, h.2, h'.1, h'.2]
      exact hnext x y hanswer _ _ hstate
    | error why =>
      rw [hx, hy] at hanswer
      exact hanswer.elim
  | error why =>
    cases hy : (a' t).answer with
    | ok y =>
      rw [hx, hy] at hanswer
      exact hanswer.elim
    | error why' =>
      rw [hx, hy] at hanswer
      have h := @bind_of_error _ _ _ a next s why hx
      have h' := @bind_of_error _ _ _ a' next' t why' hy
      rw [h.1, h.2, h'.1, h'.2, hanswer]
      exact ⟨rfl, hstate⟩

/-! ## Steps -/

theorem inStep_pure (x : α) : InStep R (pure x) (pure x) := fun _ _ h => ⟨rfl, h⟩

theorem inStep_stop (why : Stop) : InStep R (stop why : Action σ α) (stop why : Action τ α) :=
  fun _ _ h => ⟨rfl, h⟩

theorem inStep_fail (cause : BoardError) :
    InStep R (fail cause : Action σ α) (fail cause : Action τ α) := inStep_stop _

theorem inStep_report (event : Event) : InStep R (report event) (report event) :=
  fun _ _ h => ⟨rfl, h⟩

theorem inStep_reporting (x : α × List Event) : InStep R (reporting x) (reporting x) :=
  fun _ _ h => ⟨rfl, h⟩

theorem inStep_orFail (x : Except BoardError α) : InStep R (orFail x) (orFail x) := by
  cases x <;> exact fun _ _ h => ⟨rfl, h⟩

theorem inStep_orFault (x : Except Fault α) : InStep R (orFault x) (orFault x) := by
  cases x <;> exact fun _ _ h => ⟨rfl, h⟩

/-- What goes on from the state runs in step if it does so from related states. -/
theorem inStep_state {next : σ → Action σ β} {next' : τ → Action τ β}
    (h : ∀ s t, R s t → (next s s).answer = (next' t t).answer ∧
      R (next s s).state (next' t t).state) :
    InStep R (state >>= next) (state >>= next') := h

/-! ## Composed actions -/

/-- After the same answer both go on in the same way; after the same stop neither goes on. -/
theorem InStep.bind {a : Action σ α} {a' : Action τ α} {next : α → Action σ β}
    {next' : α → Action τ β} (ha : InStep R a a') (hnext : ∀ x, InStep R (next x) (next' x)) :
    InStep R (a >>= next) (a' >>= next') := by
  apply ha.upTo.bind
  intro x y hxy
  rw [hxy]
  exact hnext y

theorem InStep.attempt {a : Action σ α} {a' : Action τ α} (ha : InStep R a a') :
    InStep R a.attempt a'.attempt := by
  intro s t hst
  obtain ⟨hanswer, hstate⟩ := ha s t hst
  rw [answer_attempt, answer_attempt, state_attempt, state_attempt, hanswer]
  exact ⟨rfl, hstate⟩

/-- Actions on parts run in step if their relation is a matter of those parts, and of nothing else
that the actions change. -/
theorem InStep.on {P : σ' → τ' → Prop} {get : σ → σ'} {set : σ' → σ → σ} {get' : τ → τ'}
    {set' : τ' → τ → τ} {a : Action σ' α} {a' : Action τ' α} (ha : InStep P a a')
    (hget : ∀ s t, R s t → P (get s) (get' t))
    (hset : ∀ s t u v, R s t → P u v → R (set u s) (set' v t)) :
    InStep R (a.on get set) (a'.on get' set') := by
  intro s t hst
  obtain ⟨hanswer, hstate⟩ := ha _ _ (hget s t hst)
  exact ⟨hanswer, hset s t _ _ hst hstate⟩

end Guestbook.Action
