import LedgerGovernance.Proofs.Nesting.Turns

/-! What is left of the dispatches of a hook that fails. The record that takes the place of
the current one is the one of before the hook, with its lock released; so unless the
dispatches came to nothing, they are lost, those that were answered with a receipt too. -/

namespace LedgerGovernance

/-- Behind a hook that has failed, the host holds the record that the hook met, released. It
holds the record that the hook left, released, only where the two are the same. -/
theorem record_behind_failed_hook {params : Params} {memory : MemoryHost} {turn : Turn}
    {run : HookRun} {reason : String} (ran : run ∈ (turn.play params memory).2.runs)
    (fails : run.reason = some reason) :
    (turn.play params memory).1 = .error (.hookFailed reason) ∧
      run.left = recordAfter params run.met (run.dispatches.map NestedDispatch.move) ∧
      Execution.releaseLock params run.met =
        .ok (turn.play params memory).2.memory.record ∧
      (Execution.releaseLock params run.left =
        .ok (turn.play params memory).2.memory.record ↔ run.left = run.met) := by
  have plays := turn.plays params memory
  generalize (turn.play params memory).1 = result at plays ⊢
  generalize (turn.play params memory).2.memory.record = final at plays ⊢
  generalize (turn.play params memory).2.runs = runs at plays ran
  cases plays with
  | plain | refused => exact absurd ran List.not_mem_nil
  | completed _ returns | incomplete _ returns =>
      cases List.mem_singleton.mp ran
      cases returns.symm.trans fails
  | failed entered other releasing =>
      cases List.mem_singleton.mp ran
      cases other.symm.trans fails
      have met := Execution.held_of_start entered.started
      have left := (entered.follows.held met).2
      refine ⟨rfl, entered.follows.left_eq, releasing, fun same => ?_, fun same => ?_⟩
      · exact left.eq_of_released met same releasing
      · rw [same]
        exact releasing

/-- Bob's delegation was answered with a receipt and is gone. -/
theorem sample_delegation_lost :
    let played := (Sample.execution (some "boom")).play Sample.params
      (hostAfter Sample.params Sample.host Sample.turns)
    ∃ run ∈ played.2.runs, run.reason = some "boom" ∧
      (∃ dispatch ∈ run.dispatches, dispatch.move.action = .delegate Sample.alice ∧
        dispatch.result.isOk = true) ∧
      played.1 = .error (.hookFailed "boom") ∧
      Execution.releaseLock Sample.params run.met = .ok played.2.memory.record ∧
      Execution.releaseLock Sample.params run.left ≠ .ok played.2.memory.record := by
  have ran : ∃ run ∈ ((Sample.execution (some "boom")).play Sample.params
      (hostAfter Sample.params Sample.host Sample.turns)).2.runs,
      run.reason = some "boom" ∧ (∃ dispatch ∈ run.dispatches,
        dispatch.move.action = .delegate Sample.alice ∧ dispatch.result.isOk = true) ∧
      run.left ≠ run.met := by
    decide +kernel
  rcases ran with ⟨run, ran, fails, acknowledged, changed⟩
  rcases record_behind_failed_hook ran fails with ⟨result, -, released, iff⟩
  exact ⟨run, ran, fails, acknowledged, result, released, fun same => changed (iff.mp same)⟩

end LedgerGovernance
