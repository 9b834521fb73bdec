/-!
Actions that keep their state when they fail, run on a given state, and what they leave of it.
-/

namespace ByteMachine

variable {ε σ α β : Type} {action : EStateM ε σ α} {next : α → EStateM ε σ β} {state after : σ}

theorem bind_ok {value : α} (h : action state = .ok value after) :
    (action >>= next) state = next value after := by
  simp only [bind, EStateM.bind, h]

theorem bind_error {failure : ε} (h : action state = .error failure after) :
    (action >>= next) state = .error failure after := by
  simp only [bind, EStateM.bind, h]

theorem bind_eq_ok {value : β} {last : σ} (h : (action >>= next) state = .ok value last) :
    ∃ first after, action state = .ok first after ∧ next first after = .ok value last := by
  cases hx : action state with
  | ok first after =>
    rw [bind_ok hx] at h
    exact ⟨first, after, rfl, h⟩
  | error failure after =>
    rw [bind_error hx] at h
    cases h

theorem bind_eq_error {failure : ε} {last : σ} (h : (action >>= next) state = .error failure last) :
    action state = .error failure last ∨
      ∃ first after, action state = .ok first after ∧ next first after = .error failure last := by
  cases hx : action state with
  | ok first after =>
    rw [bind_ok hx] at h
    exact .inr ⟨first, after, rfl, h⟩
  | error failure after =>
    rw [bind_error hx] at h
    cases h
    exact .inl rfl

theorem run'_ok {value : α} (h : action state = .ok value after) :
    action.run' state = some value := by
  change (match action state with | .ok value _ => some value | .error _ _ => none) = _
  rw [h]

theorem run'_error {failure : ε} (h : action state = .error failure after) :
    action.run' state = none := by
  change (match action state with | .ok value _ => some value | .error _ _ => none) = _
  rw [h]

/-- The action has ended well, with a value and a state of this kind. -/
def Succeeds (P : α → σ → Prop) : EStateM.Result ε σ α → Prop
  | .ok value after => P value after
  | .error _ _ => False

instance (P : α → σ → Prop) [∀ value after, Decidable (P value after)] :
    (result : EStateM.Result ε σ α) → Decidable (Succeeds P result)
  | .ok value after => inferInstanceAs (Decidable (P value after))
  | .error _ _ => inferInstanceAs (Decidable False)

theorem Succeeds.exists_ok {P : α → σ → Prop} (h : Succeeds P (action state)) :
    ∃ value after, action state = .ok value after ∧ P value after := by
  cases hx : action state with
  | ok value after =>
    rw [hx] at h
    exact ⟨value, after, rfl, h⟩
  | error failure after =>
    rw [hx] at h
    exact h.elim

def finalState : EStateM.Result ε σ α → σ
  | .ok _ state | .error _ state => state

/-- The action may fail, even halfway, but what the view shows of the state stays as it was. -/
def Retains {ν : Type} (view : σ → ν) (action : EStateM ε σ α) : Prop :=
  ∀ state, view (finalState (action state)) = view state

namespace Retains

variable {ν : Type} {view : σ → ν}

theorem pure (value : α) : Retains view (Pure.pure value : EStateM ε σ α) := fun _ => rfl

theorem throw (failure : ε) : Retains view (MonadExcept.throw failure : EStateM ε σ α) :=
  fun _ => rfl

theorem get : Retains view (MonadState.get : EStateM ε σ σ) := fun _ => rfl

theorem modify {f : σ → σ} (hf : ∀ state, view (f state) = view state) :
    Retains view (modify f : EStateM ε σ Unit) := hf

theorem bind (ha : Retains view action) (hn : ∀ value, Retains view (next value)) :
    Retains view (action >>= next) := by
  intro state
  have hfirst := ha state
  cases hx : action state with
  | ok value after =>
    rw [hx] at hfirst
    rw [bind_ok hx]
    exact (hn value after).trans hfirst
  | error failure after =>
    rw [hx] at hfirst
    rw [bind_error hx]
    exact hfirst

theorem ite {c : Prop} [Decidable c] {other : EStateM ε σ α} (ha : Retains view action)
    (ho : Retains view other) : Retains view (if c then action else other) := by
  split
  · exact ha
  · exact ho

theorem ok (ha : Retains view action) {value : α} (h : action state = .ok value after) :
    view after = view state := by
  have hkept := ha state
  rw [h] at hkept
  exact hkept

end Retains

end ByteMachine
