import LedgerGovernance.Host

/-! Running a call on a host from a state, one step of it at a time: what two calls do
together is said of what each of them does. -/

namespace LedgerGovernance

namespace Call

variable {σ α β : Type}

/-- A call run on a state: how it ends, and the state behind it. -/
def on (call : Call σ α) (state : σ) : Except Interruption α × σ :=
  call.run.run state

theorem on_bind (call : Call σ α) (next : α → Call σ β) (state : σ) :
    (call >>= next).on state =
      match call.on state with
      | (.ok value, after) => (next value).on after
      | (.error interruption, after) => (.error interruption, after) := by
  unfold on
  rw [ExceptT.run_bind, StateT.run_bind]
  rcases call.run.run state with ⟨result, after⟩
  cases result <;> rfl

/-- A call in two steps that has a result has one at each step. -/
theorem on_bind_eq_ok {call : Call σ α} {next : α → Call σ β} {state : σ} {result : β}
    (done : ((call >>= next).on state).1 = .ok result) :
    ∃ value, (call.on state).1 = .ok value ∧
      ((next value).on (call.on state).2).1 = .ok result := by
  rw [on_bind] at done
  rcases ran : call.on state with ⟨interruption | value, after⟩
  · rw [ran] at done
    cases done
  · rw [ran] at done
    exact ⟨value, rfl, done⟩

theorem on_map_of_ok (transform : α → β) {call : Call σ α} {state after : σ} {value : α}
    (done : call.on state = (.ok value, after)) :
    (transform <$> call).on state = (.ok (transform value), after) := by
  rw [map_eq_pure_bind, on_bind, done]
  rfl

theorem on_ofOutcome_eq_ok {outcome : Outcome α} {value : α} {state : σ}
    (done : ((ofOutcome outcome).on state).1 = .ok value) : outcome = .ok value := by
  cases outcome with
  | ok result =>
      cases done
      rfl
  | error fault => cases done

theorem on_refuse (failure : Failure) (state : σ) :
    (refuse failure : Call σ α).on state = (.error (.fault (.refused failure)), state) :=
  rfl

theorem on_lift_bind (action : StateM σ α) (next : α → Call σ β) (state : σ) :
    ((liftM action : Call σ α) >>= next).on state =
      (next (action.run state).1).on (action.run state).2 :=
  rfl

theorem on_ofOutcome_ok_bind {outcome : Outcome α} {value : α} (done : outcome = .ok value)
    (next : α → Call σ β) (state : σ) :
    (ofOutcome outcome >>= next).on state = (next value).on state := by
  rw [done]
  rfl

theorem on_ofOutcome_error_bind {outcome : Outcome α} {fault : Fault}
    (failed : outcome = .error fault) (next : α → Call σ β) (state : σ) :
    (ofOutcome outcome >>= next).on state = (.error (.fault fault), state) := by
  rw [failed]
  rfl

end Call

end LedgerGovernance
