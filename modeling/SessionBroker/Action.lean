import SessionBroker.Error

/-!
# Actions

An action changes a state and may fail; what it did to the state before failing stays. The laws
say what each way to build an action does when it is applied to a state.
-/

namespace SessionBroker

abbrev Action (σ α : Type) := ExceptT Error (StateM σ) α

namespace Action

variable {σ α β : Type}

/-- A result that is known without an action. -/
def ofExcept (r : Except Error α) : Action σ α := ExceptT.mk (pure r)

theorem pure_apply (a : α) (s : σ) : (pure a : Action σ α) s = (.ok a, s) := rfl

theorem get_apply (s : σ) : (get : Action σ σ) s = (.ok s, s) := rfl

theorem modify_apply (f : σ → σ) (s : σ) : (modify f : Action σ PUnit) s = (.ok ⟨⟩, f s) := rfl

theorem ofExcept_apply (r : Except Error α) (s : σ) : (ofExcept r : Action σ α) s = (r, s) := rfl

theorem lift_apply (a : StateM σ α) (s : σ) :
    (liftM a : Action σ α) s = (.ok (a s).1, (a s).2) := rfl

theorem bind_apply (a : Action σ α) (f : α → Action σ β) (s : σ) :
    (a >>= f) s =
      match a s with
      | (.ok x, t) => f x t
      | (.error e, t) => (.error e, t) := by
  show ExceptT.bind a f s = _
  simp only [ExceptT.bind, ExceptT.mk, bind, StateT.bind]
  rcases a s with ⟨r, t⟩
  cases r <;> rfl

end Action

end SessionBroker
