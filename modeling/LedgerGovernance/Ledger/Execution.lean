import LedgerGovernance.Ledger.Operations
import LedgerGovernance.Ledger.Proposals

/-! The execution of a queued proposal. It needs the Executor role and runs under
the lock of the record: the lock is taken, the operation is found to be
executable, and completing the execution marks the operation Done and the
proposal Executed and gives the lock back. -/

namespace LedgerGovernance

namespace Execution

/-- The record with the lock taken, for a caller that may execute. -/
def start (params : Params) (record : Text) (caller : Account) : Outcome Text := do
  Members.requireRole record caller .executor
  if Proposals.isLocked record then Outcome.refuse .executionInProgress
  else Proposals.setLock params record true

/-- The index of the operation scheduled for a proposal, if it can be executed.
Nothing is written. -/
def validate (params : Params) (record : Text) (proposalId now : Number) :
    Outcome Nat := do
  let index ← Operations.indexOfProposal record (← proposalId.u32)
  Operations.checkExecutable params record index now
  return index

def releaseLock (params : Params) (record : Text) : Outcome Text :=
  Proposals.setLock params record false

/-- The record with the proposal Executed, where there is one with the id. -/
def markExecuted (params : Params) (record : Text) (proposalId : Nat) : Outcome Text :=
  match Proposals.indexOf record proposalId with
  | .ok index => Proposals.setState params record index ProposalState.executed.code
  | .error _ => .ok record

/-- Executes the operation on a locked record and releases the lock. -/
def complete (params : Params) (locked : Text) (proposalId now : Number) :
    Outcome Text := do
  let proposalId ← proposalId.u32
  let index ← Operations.indexOfProposal locked proposalId
  let record ← Operations.executeInOrder params locked index now
  let record ← markExecuted params record proposalId
  releaseLock params record

/-- A whole execution in one step. A refusal leaves the record as it was, so the
lock is never left behind. -/
def run (params : Params) (record : Text) (caller : Account) (proposalId now : Number) :
    Outcome Text := do
  let locked ← start params record caller
  complete params locked proposalId now

end Execution

end LedgerGovernance
