import LedgerGovernance.Dispatch
import LedgerGovernance.Proofs.Calls
import LedgerGovernance.Proofs.Number

/-! An execution with a hook, one stage after the other: what each stage makes of the
answers of its host. -/

namespace LedgerGovernance

namespace Dispatcher

variable {σ : Type} (dispatcher : Dispatcher σ) {hook : ExecutionHook σ}
  {record locked current released final : Text} {caller : Account} {proposalId : Number}
  {id now : Nat} {state next read : σ}

/-- What follows once the locked record is stored. -/
def runHook (hook : ExecutionHook σ) (locked : Text) (context : ExecutionContext) :
    Call σ Receipt := do
  match ← (hook context).run with
  | .ok () => dispatcher.complete context.proposalId context.now
  | .error reason =>
      let _ ← dispatcher.release locked
      throw (.hookFailed reason)

/-! ## Up to the hook -/

theorem executeAround_of_start_error {fault : Fault}
    (refused : Execution.start dispatcher.params record caller = .error fault) (state : σ) :
    (dispatcher.executeAround hook record caller proposalId now).on state =
      (.error (.fault fault), state) := by
  have unlocked : (dispatcher.storeLocked record caller proposalId (now : Number)).on state =
      (.error (.fault fault), state) := Call.on_ofOutcome_error_bind refused _ _
  rw [executeAround, Call.on_bind, unlocked]

theorem executeAround_of_validate_error {fault : Fault}
    (started : Execution.start dispatcher.params record caller = .ok locked)
    (refused : Execution.validate dispatcher.params locked proposalId (now : Number) =
      .error fault) (state : σ) :
    (dispatcher.executeAround hook record caller proposalId now).on state =
      (.error (.fault fault), state) := by
  have unlocked : (dispatcher.storeLocked record caller proposalId (now : Number)).on state =
      (.error (.fault fault), state) :=
    (Call.on_ofOutcome_ok_bind started _ _).trans (Call.on_ofOutcome_error_bind refused _ _)
  rw [executeAround, Call.on_bind, unlocked]

/-- Once the operation is known to be executable, the hook runs on the locked record. -/
theorem executeAround_of_validate {index : Nat}
    (started : Execution.start dispatcher.params record caller = .ok locked)
    (valid : Execution.validate dispatcher.params locked (id : Number) (now : Number) =
      .ok index)
    (fits : id ≤ maxU32)
    (writing : (dispatcher.host.writeRecord locked).run state = (true, next)) :
    (dispatcher.executeAround hook record caller (id : Number) now).on state =
      (dispatcher.runHook hook locked { proposalId := id, caller, now }).on next := by
  have stored : (dispatcher.storeLocked record caller (id : Number) (now : Number)).on state =
      (.ok locked, next) := by
    refine (Call.on_ofOutcome_ok_bind started _ _).trans
      ((Call.on_ofOutcome_ok_bind valid _ _).trans ?_)
    rw [Call.on_lift_bind, writing]
    rfl
  rw [executeAround, Call.on_bind, stored]
  exact Call.on_ofOutcome_ok_bind (Number.u32_eq_ok.mpr ⟨rfl, fits⟩) _ _

/-! ## Behind the hook -/

theorem release_run (releasing : Execution.releaseLock dispatcher.params record = .ok released)
    (writing : (dispatcher.host.writeRecord released).run state = (true, next)) :
    (dispatcher.release record).run state = (.ok (), next) := by
  rw [release, releasing]
  dsimp only
  rw [StateT.run_bind, writing]
  rfl

variable (reading : dispatcher.host.readRecord.run state = (some current, read))

include reading

theorem complete_of_ok
    (completing : Execution.complete dispatcher.params current (id : Number) (now : Number) =
      .ok final)
    (writing : (dispatcher.host.writeRecord final).run read = (true, next)) :
    (dispatcher.complete id now).on state =
      (.ok { record := final, proposalId := some id }, next) := by
  rw [complete, Call.on_lift_bind, reading]
  dsimp only
  rw [completing]
  dsimp only
  rw [commit, Call.on_lift_bind, writing]
  rfl

theorem complete_of_refused {failure : Failure}
    (completing : Execution.complete dispatcher.params current (id : Number) (now : Number) =
      .error (.refused failure))
    (releasing : Execution.releaseLock dispatcher.params current = .ok released)
    (writing : (dispatcher.host.writeRecord released).run read = (true, next)) :
    (dispatcher.complete id now).on state = (.error (.fault (.refused failure)), next) := by
  rw [complete, Call.on_lift_bind, reading]
  dsimp only
  rw [completing]
  dsimp only
  rw [Call.on_lift_bind, dispatcher.release_run releasing writing]
  rfl

omit reading

variable {dispatcher}

/-! ## Logging -/

/-- A log that leaves the host alone makes no difference. -/
theorem dispatch_on_of_quiet {action : Action}
    (quiet : ∀ line state, (dispatcher.log line).run state = ((), state)) :
    (dispatcher.dispatch action).on state = (dispatcher.run action).on state := by
  unfold Call.on
  rw [dispatch, ExceptT.run_mk, StateT.run_bind]
  rcases (dispatcher.run action).run.run state with ⟨result, after⟩
  rcases result with ((failure | argument) | reason) | receipt
  · change (Except.error _, ((dispatcher.log _).run after).2) = _
    rw [quiet]
  · rfl
  · rfl
  · change (Except.ok _, ((dispatcher.log _).run after).2) = _
    rw [quiet]

end Dispatcher

end LedgerGovernance
