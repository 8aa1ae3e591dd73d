import LedgerGovernance.Proofs.LockRelease

/-! Hooks that dispatch. A hook may dispatch actions to the host that its execution runs
on, through the very dispatcher that it is the hook of, and choose each of them by what
has become of those before; then it returns or fails. What such hooks do is noted down
beside the host. On a record under the lock their dispatches are moves of a run, and no
execution among them gets anywhere. -/

namespace LedgerGovernance

/-! ## Moves and the lock -/

/-- A move of an account at a second of ledger time. -/
structure Move.Proper (move : Move) : Prop where
  caller_size : move.caller.length = Account.size
  now_le : move.now ≤ maxU32

instance (move : Move) : Decidable move.Proper :=
  decidable_of_iff (move.caller.length = Account.size ∧ move.now ≤ maxU32)
    ⟨fun ⟨size, fits⟩ => ⟨size, fits⟩, fun ⟨size, fits⟩ => ⟨size, fits⟩⟩

/-- A move executes, or it leaves the record, or it writes entries to it that it may. -/
theorem Move.next_cases (params : Params) (record : Text) (move : Move) :
    (∃ id locked, move.action = .execute id ∧
      Execution.start params record move.caller = .ok locked ∧
        Execution.complete params locked id (move.now : Number) =
          .ok (move.next params record)) ∨
    move.next params record = record ∨
    Record.Written Actions.Writes params.recordCapacity record (move.next params record) := by
  unfold Move.next
  cases done : move.outcome params record with
  | error fault => exact .inr (.inl rfl)
  | ok receipt =>
      by_cases executes : ∃ id, move.action = .execute id
      · rcases executes with ⟨id, executes⟩
        rw [Move.outcome, executes] at done
        rcases Outcome.bind_eq_ok.mp done with ⟨next, executing, result⟩
        cases result
        rcases Outcome.bind_eq_ok.mp executing with ⟨locked, starting, completing⟩
        exact .inl ⟨id, locked, executes, starting, completing⟩
      · rw [not_exists] at executes
        exact .inr ((Action.effect_of_apply done).written executes)

namespace Execution

variable {params : Params} {record : Text}

/-- What answers an attempt to execute while another execution holds the lock. -/
def denial (record : Text) (caller : Account) : Failure :=
  if Members.hasRole record caller Role.executor.bit then .executionInProgress
  else .lacksRole caller .executor

theorem start_of_locked {caller : Account} (size : caller.length = Account.size)
    (locked : Proposals.isLocked record = true) :
    start params record caller = .error (.refused (denial record caller)) := by
  unfold start denial Members.requireRole
  rw [if_pos locked]
  split
  · rfl
  · rw [Account.hex_eq_ok.mpr ⟨size, rfl⟩]
    rfl

theorem run_of_locked {caller : Account} {proposalId now : Number}
    (size : caller.length = Account.size) (locked : Proposals.isLocked record = true) :
    run params record caller proposalId now = .error (.refused (denial record caller)) := by
  rw [run, start_of_locked size locked]
  rfl

/-- A move on a record under the lock leaves it under the lock. -/
theorem Held.next (held : Held params record) {move : Move} (proper : move.Proper) :
    Held params (move.next params record) := by
  rcases move.next_cases params record with ⟨id, locked, -, starting, -⟩ | same | written
  · rw [start_of_locked proper.caller_size held.locked] at starting
    cases starting
  · rw [same]
    exact held
  · exact held.written written fun value writes => writes.1 rfl

end Execution

/-! ## Scripts -/

/-- What a hook does: it dispatches, sees how that went, and goes on accordingly, until
it returns or fails with a reason. -/
inductive Script where
  | ending (reason : Option String)
  | dispatch (move : Move) (proper : move.Proper)
      (next : Except Interruption Receipt → Script)

/-- A dispatch that a hook has made, and the record in the host behind it. -/
structure NestedDispatch where
  move : Move
  result : Except Interruption Receipt
  record : Text

/-- The record behind some dispatches, which is `met` where there are none. -/
def NestedDispatch.left (met : Text) (dispatches : List NestedDispatch) : Text :=
  (dispatches.getLast?.map NestedDispatch.record).getD met

theorem NestedDispatch.left_cons (met : Text) (first : NestedDispatch)
    (rest : List NestedDispatch) : left met (first :: rest) = left first.record rest := by
  unfold left
  rw [List.getLast?_cons]
  cases rest.getLast? <;> rfl

/-- A hook from start to end: the record it met, what it dispatched, and the reason with
which it failed, if it did. -/
structure HookRun where
  context : ExecutionContext
  met : Text
  dispatches : List NestedDispatch
  reason : Option String

/-- The record that a hook has left. -/
def HookRun.left (run : HookRun) : Text :=
  NestedDispatch.left run.met run.dispatches

def HookRun.ending (run : HookRun) : Except String Unit :=
  match run.reason with
  | none => .ok ()
  | some reason => .error reason

/-- A host with the runs of hooks in the order of their ends. -/
structure Observed where
  memory : MemoryHost
  runs : List HookRun

namespace MemoryHost

/-- The host as it is when a call comes in. -/
def receive (memory : MemoryHost) (move : Move) : MemoryHost :=
  { memory with caller := some move.caller, now := (move.now : Number) }

end MemoryHost

namespace Observed

def host : Host Observed :=
  MemoryHost.host.within (·.memory) fun observed memory => { observed with memory }

def dispatcher (params : Params) (onExecute : Option (ExecutionHook Observed)) :
    Dispatcher Observed where
  host
  params
  onExecute

def receive (observed : Observed) (move : Move) : Observed :=
  { observed with memory := observed.memory.receive move }

def withRecord (observed : Observed) (record : Text) : Observed :=
  { observed with memory := { observed.memory with record } }

end Observed

namespace Script

/-- The dispatches that a script makes, and how it ends. -/
def play (dispatcher : Dispatcher Observed) :
    Script → StateM Observed (List NestedDispatch × Option String)
  | ending reason => return ([], reason)
  | dispatch move _ next => do
      modify fun observed => observed.receive move
      let result ← (dispatcher.dispatch move.action).run
      let record := (← get).memory.record
      let (rest, reason) ← (next result).play dispatcher
      return ({ move, result, record } :: rest, reason)

/-- The hook that plays a script through a dispatcher. -/
def hook (dispatcher : Dispatcher Observed) (script : ExecutionContext → Script) :
    ExecutionHook Observed := fun context => ExceptT.mk do
  let met := (← get).memory.record
  let (dispatches, reason) ← (script context).play dispatcher
  let run : HookRun := { context, met, dispatches, reason }
  modify fun observed => { observed with runs := observed.runs ++ [run] }
  return run.ending

end Script

/-- The hook that plays a script through its own dispatcher. Two layers are as good as any
number of them, because no hook runs inside another. -/
def nestingHook (params : Params) (script : ExecutionContext → Script) :
    ExecutionHook Observed :=
  let inner := Script.hook (Observed.dispatcher params none) script
  Script.hook (Observed.dispatcher params (some inner)) script

end LedgerGovernance
