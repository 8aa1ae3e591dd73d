import LedgerGovernance.Host
import LedgerGovernance.Log

/-! Dispatching an action to a host: the caller is verified, the record and the
time are read, the action is applied, and the new record is written. The first of
these that fails decides the answer, and no action that failed is written.

An execution may have a hook, which runs once the operation is known to be
executable and while the record in the host is locked. -/

namespace LedgerGovernance

structure ExecutionContext where
  proposalId : Nat
  caller : Account
  now : Nat
deriving DecidableEq, Repr

/-- A side effect of an execution; it may fail with a reason. -/
abbrev ExecutionHook (σ : Type) := ExecutionContext → ExceptT String (StateM σ) Unit

structure Dispatcher (σ : Type) where
  host : Host σ
  params : Params
  onExecute : Option (ExecutionHook σ) := none
  log : LogLine → StateM σ Unit := fun _ => pure ()

namespace Dispatcher

variable {σ : Type} (dispatcher : Dispatcher σ)

/-- The caller is asked for twice, and both answers have to be the same. -/
def verifyCaller : Call σ Account := do
  match ← dispatcher.host.callerIdentity with
  | none => Call.refuse .callerUnknown
  | some first =>
      if (← dispatcher.host.callerIdentity) = some first then return first
      else Call.refuse .callerChanged

def readRecord : Call σ Text := do
  match ← dispatcher.host.readRecord with
  | some record => return record
  | none => Call.refuse .recordUnreadable

def readTime : Call σ Nat := do
  let time ← dispatcher.host.currentTime
  match time.upTo? maxU32 with
  | some now => return now
  | none => Call.refuse (.invalidTime time)

def commit (receipt : Receipt) : Call σ Receipt := do
  if ← dispatcher.host.writeRecord receipt.record then return receipt
  else Call.refuse .recordRefused

/-! ## Executions with a hook -/

/-- Writes the record with its lock released. -/
def release (record : Text) : StateM σ (Outcome Unit) := do
  match Execution.releaseLock dispatcher.params record with
  | .error fault => return .error fault
  | .ok released =>
      if ← dispatcher.host.writeRecord released then return .ok ()
      else return Outcome.refuse .releasedRecordRefused

/-- The locked record of an execution that is going to succeed, stored in the
host. -/
def storeLocked (record : Text) (caller : Account) (proposalId now : Number) :
    Call σ Text := do
  let locked ← Call.ofOutcome (Execution.start dispatcher.params record caller)
  let _ ← Call.ofOutcome (Execution.validate dispatcher.params locked proposalId now)
  if ← dispatcher.host.writeRecord locked then return locked
  else Call.refuse .lockedRecordRefused

/-- Completes an execution on the record that its hook has left. If that is
refused, the lock is released, and a refusal of the release is the answer rather
than the refusal it follows. -/
def complete (proposalId now : Nat) : Call σ Receipt := do
  match ← dispatcher.host.readRecord with
  | none => Call.refuse .recordUnreadableAfterExecution
  | some current =>
      match Execution.complete dispatcher.params current proposalId now with
      | .ok record => dispatcher.commit { record, proposalId := some proposalId }
      | .error (.refused failure) =>
          Call.ofOutcome (← dispatcher.release current)
          Call.refuse failure
      | .error (.illTyped argument) => throw (.fault (.illTyped argument))

/-- An execution around a hook. When the hook fails, the record of before the
hook takes the place of the current one, with its lock released. -/
def executeAround (hook : ExecutionHook σ) (record : Text) (caller : Account)
    (proposalId : Number) (now : Nat) : Call σ Receipt := do
  let locked ← dispatcher.storeLocked record caller proposalId now
  let proposalId ← Call.ofOutcome proposalId.u32
  match ← (hook { proposalId, caller, now }).run with
  | .ok () => dispatcher.complete proposalId now
  | .error reason =>
      let _ ← dispatcher.release locked
      throw (.hookFailed reason)

/-! ## Dispatching -/

/-- What is written for an action, and the receipt for it. -/
def perform (action : Action) (record : Text) (caller : Account) (now : Nat) :
    Call σ Receipt := do
  match action, dispatcher.onExecute with
  | .execute proposalId, some hook =>
      dispatcher.executeAround hook record caller proposalId now
  | action, _ =>
      let receipt ← Call.ofOutcome
        (action.apply dispatcher.params record caller (now : Number))
      dispatcher.commit receipt

def run (action : Action) : Call σ Receipt := do
  let caller ← dispatcher.verifyCaller
  let record ← dispatcher.readRecord
  let now ← dispatcher.readTime
  dispatcher.perform action record caller now

/-- Runs an action and logs how it went. Nothing is logged of an action that was
ill-typed or whose hook failed. -/
def dispatch (action : Action) : Call σ Receipt := ExceptT.mk do
  let result ← (dispatcher.run action).run
  match result with
  | .ok _ => dispatcher.log (.actionSucceeded action)
  | .error (.fault (.refused failure)) => dispatcher.log (.actionRefused action failure)
  | .error _ => pure ()
  return result

/-- Runs an action for its exit code only. -/
def dispatchExitCode (action : Action) : Call σ Int := ExceptT.mk do
  match ← (dispatcher.dispatch action).run with
  | .ok _ => return .ok successExitCode
  | .error (.fault (.refused failure)) => return .ok failure.code.exitCode
  | .error interruption => return .error interruption

end Dispatcher

end LedgerGovernance
