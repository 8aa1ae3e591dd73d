import LedgerGovernance.Proofs.Nesting.Turns

/-! The lock is safe whatever hooks dispatch. It is closed while a hook runs, however the
dispatches of the hook go, and no execution among these gets past it; behind every turn it
is open again, whether the turn has a result or not. The record may be any text at all. -/

namespace LedgerGovernance

/-- No move leaves the lock closed behind it. -/
theorem Move.isLocked_next {params : Params} {record : Text} {move : Move}
    (unlocked : Proposals.isLocked record = false) :
    Proposals.isLocked (move.next params record) = false := by
  rcases move.next_cases params record with ⟨id, locked, -, -, completing⟩ | same | written
  · exact Execution.isLocked_of_complete completing
  · rw [same]
    exact unlocked
  · rw [Proposals.isLocked, written.read?_eq fun value writes => writes.1 rfl]
    exact unlocked

/-- Under the lock every attempt to execute is denied. -/
theorem Follows.denied {params : Params} {record : Text} {dispatches : List NestedDispatch}
    (follows : Follows params record dispatches) :
    ∀ dispatch ∈ dispatches, ∀ id, dispatch.move.action = .execute id →
      dispatch.result = .error (.fault (.refused
        (Execution.denial dispatch.record dispatch.move.caller))) := by
  induction follows with
  | nil => exact List.forall_mem_nil _
  | @cons record first rest proper held result_eq record_eq later induction =>
      refine List.forall_mem_cons.mpr ⟨fun id executes => ?_, induction⟩
      have denied : first.move.outcome params record =
          .error (.refused (Execution.denial record first.move.caller)) := by
        rw [Move.outcome, executes, Action.apply,
          Execution.run_of_locked proper.caller_size held.locked]
        rfl
      have same : first.record = record := by rw [record_eq, Move.next, denied]
      rw [result_eq, denied, same]
      rfl

namespace Turn

/-- What a turn does to the lock: one hook at most has run, under the lock from start to
end; no execution got past it; and the lock is open again. -/
structure Guarded (played : Except Interruption Receipt × Observed) : Prop where
  unlocked : Proposals.isLocked played.2.memory.record = false
  runs_le : played.2.runs.length ≤ 1
  met_locked : ∀ run ∈ played.2.runs, Proposals.isLocked run.met = true
  dispatch_locked : ∀ run ∈ played.2.runs, ∀ dispatch ∈ run.dispatches,
    Proposals.isLocked dispatch.record = true
  denied : ∀ run ∈ played.2.runs, ∀ dispatch ∈ run.dispatches, ∀ id,
    dispatch.move.action = .execute id → dispatch.result = .error (.fault (.refused
      (if Members.hasRole dispatch.record dispatch.move.caller Role.executor.bit
        then .executionInProgress else .lacksRole dispatch.move.caller .executor)))

variable {params : Params} {memory : MemoryHost} {turn : Turn}

private theorem guarded_of_entered {played : Except Interruption Receipt × Observed}
    {record : Text} {id : Nat} {run : HookRun} (entered : turn.Entered params record id run)
    (runs : played.2.runs = [run])
    (unlocked : Proposals.isLocked played.2.memory.record = false) : Guarded played := by
  have met := Execution.held_of_start entered.started
  have each := (entered.follows.held met).1
  constructor
  case unlocked => exact unlocked
  case runs_le => simp [runs]
  all_goals
    rw [runs]
    intro other member
    cases List.mem_singleton.mp member
  case met_locked => exact met.locked
  case dispatch_locked => exact fun dispatch member => (each dispatch member).locked
  case denied => exact entered.follows.denied

private theorem guarded_of_unhooked {played : Except Interruption Receipt × Observed}
    (runs : played.2.runs = [])
    (unlocked : Proposals.isLocked played.2.memory.record = false) : Guarded played := by
  constructor
  case unlocked => exact unlocked
  case runs_le => simp [runs]
  all_goals
    rw [runs]
    exact fun run member => absurd member List.not_mem_nil

/-- A turn on an open lock. -/
theorem guarded_of_unlocked (unlocked : Proposals.isLocked memory.record = false) :
    Guarded (turn.play params memory) := by
  have plays := turn.plays params memory
  generalize (turn.play params memory).1 = result at plays
  generalize recordEq : (turn.play params memory).2.memory.record = record at plays
  generalize runsEq : (turn.play params memory).2.runs = runs at plays
  cases plays with
  | plain =>
      exact guarded_of_unhooked runsEq (recordEq ▸ Move.isLocked_next unlocked)
  | refused => exact guarded_of_unhooked runsEq (recordEq ▸ unlocked)
  | failed entered _ releasing | incomplete entered _ _ releasing =>
      exact guarded_of_entered entered runsEq
        (recordEq ▸ Execution.isLocked_of_releaseLock releasing)
  | completed entered _ completing =>
      exact guarded_of_entered entered runsEq
        (recordEq ▸ Execution.isLocked_of_complete completing)

end Turn

/-- The lock is open between turns. -/
theorem isLocked_hostAfter {params : Params} {memory : MemoryHost}
    (unlocked : Proposals.isLocked memory.record = false) (turns : List Turn) :
    Proposals.isLocked (hostAfter params memory turns).record = false := by
  induction turns generalizing memory with
  | nil => exact unlocked
  | cons turn turns induction => exact induction (Turn.guarded_of_unlocked unlocked).unlocked

/-- Whatever record a host starts with, as long as its lock is open, and whatever turns it
has taken, no turn gets around the lock or leaves it closed. -/
theorem lock_safe_under_nesting (params : Params) {memory : MemoryHost}
    (unlocked : Proposals.isLocked memory.record = false) (turns : List Turn) (turn : Turn) :
    Turn.Guarded (turn.play params (hostAfter params memory turns)) :=
  Turn.guarded_of_unlocked (isLocked_hostAfter unlocked turns)

theorem sample_lock_safe :
    let turns := Sample.turns ++ [Sample.execution (some "boom")]
    let played := (Sample.execution none).play Sample.params
      (hostAfter Sample.params Sample.host turns)
    Proposals.isLocked Sample.host.record = false ∧ Turn.Guarded played ∧
      played.2.runs.map (fun run => run.dispatches.length) = [3] := by
  have unlocked : Proposals.isLocked Sample.host.record = false := by decide +kernel
  exact ⟨unlocked, lock_safe_under_nesting Sample.params unlocked _ _, by decide +kernel⟩

end LedgerGovernance
