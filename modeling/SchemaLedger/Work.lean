import SchemaLedger.Error

/-!
# Work

Work changes a state and either has a result or fails. What it did before it failed stays done.
Work is a function from a state to a result and the state after it; the statements say what that
function is for each way of putting work together.
-/

namespace SchemaLedger

/-- Work on a state that may fail; the state is kept either way. -/
abbrev Work (σ : Type) := ExceptT Error (StateM σ)

namespace Work

variable {σ α β : Type}

@[simp]
theorem pure_apply (value : α) (state : σ) : (pure value : Work σ α) state = (.ok value, state) :=
  rfl

@[simp]
theorem get_apply (state : σ) : (get : Work σ σ) state = (.ok state, state) := rfl

@[simp]
theorem set_apply (next state : σ) : (set next : Work σ PUnit) state = (.ok ⟨⟩, next) := rfl

@[simp]
theorem liftExcept_apply (result : Except Error α) (state : σ) :
    (liftM result : Work σ α) state = (result, state) := by
  cases result <;> rfl

/-- Work goes on with the result of the work before it, and a failure ends it. -/
theorem bind_apply (work : Work σ α) (next : α → Work σ β) (state : σ) :
    (work >>= next) state =
      match work state with
      | (.ok value, after) => next value after
      | (.error error, after) => (.error error, after) := by
  change (ExceptT.bind work next) state = _
  simp only [ExceptT.bind, ExceptT.mk, bind, StateT.bind]
  rcases work state with ⟨result, after⟩
  cases result <;> rfl

theorem bind_apply_of_ok {work : Work σ α} {state after : σ} {value : α}
    (success : work state = (.ok value, after)) (next : α → Work σ β) :
    (work >>= next) state = next value after := by
  rw [bind_apply, success]

theorem bind_apply_of_error {work : Work σ α} {state after : σ} {error : Error}
    (failure : work state = (.error error, after)) (next : α → Work σ β) :
    (work >>= next) state = (.error error, after) := by
  rw [bind_apply, failure]

/-- Work whose result is not looked at still succeeds or fails as it does. -/
theorem discard_apply (work : Work σ α) (state : σ) :
    (do let _ ← work : Work σ Unit) state =
      ((work state).1.map fun _ => (), (work state).2) := by
  rw [bind_apply]
  rcases work state with ⟨result, after⟩
  cases result <;> rfl

end Work

end SchemaLedger
