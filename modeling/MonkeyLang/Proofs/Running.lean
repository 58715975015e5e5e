/-
This file says how computations run that change a state and may fail: parsers
in front of their cursor, and programs in front of their machine. A computation
in front of a state has an outcome, and each way of putting computations
together has an equation for it, so that no later proof opens a monad.
-/

/-- The outcome of a computation in front of a state: the result or the error, and the state
behind it. -/
def ExceptT.on {ε σ α : Type} (computation : ExceptT ε (StateM σ) α) (state : σ) :
    Except ε α × σ :=
  StateT.run (ExceptT.run computation) state

namespace MonkeyLang

variable {ε σ α β : Type} {computation : ExceptT ε (StateM σ) α}
  {next : α → ExceptT ε (StateM σ) β} {step : StateM σ α} {state last : σ}

theorem on_mk (outcome : σ → Except ε α × σ) :
    (ExceptT.mk outcome : ExceptT ε (StateM σ) α).on state = outcome state := rfl

/-- Computations are equal that have the same outcomes. -/
theorem eq_of_on {other : ExceptT ε (StateM σ) α}
    (same : ∀ state, computation.on state = other.on state) : computation = other :=
  funext same

theorem on_pure (result : α) :
    (pure result : ExceptT ε (StateM σ) α).on state = (.ok result, state) := rfl

theorem on_pure_eq_ok {given result : α} :
    (pure given : ExceptT ε (StateM σ) α).on state = (.ok result, last) ↔
      given = result ∧ state = last := by
  simp [on_pure]

theorem on_throw (error : ε) :
    (throw error : ExceptT ε (StateM σ) α).on state = (.error error, state) := rfl

theorem on_throw_ne_ok {error : ε} {result : α} :
    (throw error : ExceptT ε (StateM σ) α).on state = (.ok result, last) ↔ False := by
  simp [on_throw]

theorem on_bind : (computation >>= next).on state =
    match computation.on state with
    | (.ok result, middle) => (next result).on middle
    | (.error error, middle) => (.error error, middle) := by
  show ((ExceptT.run computation >>= ExceptT.bindCont next).run state) = _
  rw [StateT.run_bind]
  cases outcome : StateT.run (ExceptT.run computation) state with
  | mk result middle => cases result <;> simp [ExceptT.on, outcome, ExceptT.bindCont] <;> rfl

/-- A sequence succeeds exactly if both of its parts do, one behind the other. -/
theorem on_bind_eq_ok {result : β} :
    (computation >>= next).on state = (.ok result, last) ↔
      ∃ first middle, computation.on state = (.ok first, middle) ∧
        (next first).on middle = (.ok result, last) := by
  rw [on_bind]
  rcases computation.on state with ⟨_ | first, middle⟩
  · simp
  · constructor
    · exact fun follows => ⟨first, middle, rfl, follows⟩
    · rintro ⟨_, _, same, follows⟩
      obtain ⟨rfl, rfl⟩ : first = _ ∧ middle = _ := by simpa using same
      exact follows

theorem on_lift : (liftM step : ExceptT ε (StateM σ) α).on state =
    (.ok (StateT.run step state).1, (StateT.run step state).2) := rfl

theorem on_lift_eq_ok {result : α} :
    (liftM step : ExceptT ε (StateM σ) α).on state = (.ok result, last) ↔
      StateT.run step state = (result, last) := by
  rw [on_lift, Prod.mk.injEq, Except.ok.injEq, Prod.ext_iff]

/-- A step in front of a computation only sets the state from which the computation goes on. -/
theorem on_lift_bind : ((liftM step : ExceptT ε (StateM σ) α) >>= next).on state =
    (next (StateT.run step state).1).on (StateT.run step state).2 := by
  rw [on_bind, on_lift]

theorem on_get_bind {next : σ → ExceptT ε (StateM σ) β} :
    (get >>= next).on state = (next state).on state := by
  rw [on_bind]
  rfl

theorem run_bind {next : α → StateM σ β} :
    StateT.run (step >>= next) state =
      StateT.run (next (StateT.run step state).1) (StateT.run step state).2 := rfl

end MonkeyLang
