import LedgerGovernance.Ledger.Ballots
import LedgerGovernance.Ledger.Delegations
import LedgerGovernance.Ledger.Execution
import LedgerGovernance.Ledger.Intents

/-! What accounts can do. An action is applied to the current record on behalf of
a caller at a time; it answers with the record that takes its place, or it is
refused and nothing has changed. Power and roles are changed by admins only,
proposing and voting count what is delegated to the caller, and only a Succeeded
proposal is queued. -/

namespace LedgerGovernance

inductive Action where
  | selfRegister
  | setVotingPower (account : Account) (power : Int)
  | grantRole (account : Account) (role : Number)
  | revokeRole (account : Account) (role : Number)
  | delegate (target : Account)
  | snapshot (proposalId : Number) (account : Account)
  | propose (description : Option Number)
  | castVote (proposalId support : Number)
  | submitVoteIntent (proposalId support : Number)
  | cancel (proposalId : Number)
  | queue (proposalId : Number)
  | execute (proposalId : Number)
deriving DecidableEq, Repr

/-- What an applied action answers, apart from the name of the action. -/
structure Receipt where
  record : Text
  proposalId : Option Nat := none
  operationId : Option Nat := none
  votingPower : Option Nat := none
deriving DecidableEq, Repr

namespace Action

def name : Action → String
  | selfRegister => "selfRegister"
  | setVotingPower .. => "setVotingPower"
  | grantRole .. => "grantRole"
  | revokeRole .. => "revokeRole"
  | delegate _ => "delegate"
  | snapshot .. => "snapshot"
  | propose _ => "propose"
  | castVote .. => "castVote"
  | submitVoteIntent .. => "submitVoteIntent"
  | cancel _ => "cancel"
  | queue _ => "queue"
  | execute _ => "execute"

end Action

namespace Actions

/-! ## Members -/

/-- Registers the caller without roles; a member is left as it is. -/
def selfRegister (params : Params) (record : Text) (caller : Account) : Outcome Text :=
  match Members.find? record caller with
  | some _ => .ok record
  | none => Members.set params record caller params.selfRegisterPower 0

/-- Sets the base power of an account, which becomes a member if it is none. -/
def setVotingPower (params : Params) (record : Text) (caller account : Account)
    (power : Int) : Outcome Text := do
  Members.requireRole record caller .admin
  Members.set params record account power (Members.roles record account : Nat)

def grantRole (params : Params) (record : Text) (caller account : Account)
    (role : Number) : Outcome Text := do
  Members.requireRole record caller .admin
  Members.grantRole params record account role

def revokeRole (params : Params) (record : Text) (caller account : Account)
    (role : Number) : Outcome Text := do
  Members.requireRole record caller .admin
  Members.revokeRole params record account role

/-- The index of the proposal with an id from outside. -/
def addressed (record : Text) (proposalId : Number) : Outcome Nat := do
  Proposals.indexOf record (← proposalId.u32)

def snapshot (params : Params) (record : Text) (proposalId : Number) (account : Account) :
    Outcome Delegations.Snapshot := do
  let _ ← addressed record proposalId
  Delegations.snapshot params record proposalId account

/-! ## Proposals -/

/-- A proposal that names no description is described by the time. -/
def propose (params : Params) (record : Text) (caller : Account) (now : Number)
    (description : Option Number) : Outcome Proposals.Proposed := do
  let votes ← Delegations.readEffectiveVotes record caller
  Proposals.propose params record caller
    (description.getD (Digest.descriptionOfTime now : Nat)) now votes

def castVote (params : Params) (record : Text) (caller : Account)
    (proposalId support now : Number) : Outcome Text := do
  let index ← addressed record proposalId
  let weight ← Delegations.readEffectiveVotes record caller
  let support ← Ballots.judgeSupport support
  Ballots.cast params record index caller support weight now (Members.totalPower record)

def submitVoteIntent (params : Params) (record : Text) (caller : Account)
    (proposalId support : Number) : Outcome Text := do
  let _ ← addressed record proposalId
  Intents.submit params record proposalId support caller

def cancel (params : Params) (record : Text) (caller : Account)
    (proposalId now : Number) : Outcome Text := do
  let index ← addressed record proposalId
  Proposals.cancel params record index caller now (Members.totalPower record)

/-- Schedules the operation of a Succeeded proposal with the least delay and
marks the proposal Queued. -/
def queue (params : Params) (record : Text) (proposalId now : Number) :
    Outcome Operations.Scheduled := do
  let id ← proposalId.u32
  let index ← Proposals.indexOf record id
  if Proposals.state params record index now (Members.totalPower record) ≠ .succeeded then
    Outcome.refuse (.notSucceeded id)
  else
    let scheduled ← Operations.schedule params record proposalId now
      (params.timelockMinDelay : Number) none
    let record ← Proposals.setState params scheduled.record index ProposalState.queued.code
    return { scheduled with record }

end Actions

/-- Applies an action on behalf of `caller` at the time `now`. -/
def Action.apply (params : Params) (record : Text) (caller : Account) (now : Number) :
    Action → Outcome Receipt
  | selfRegister => do
      return { record := ← Actions.selfRegister params record caller }
  | setVotingPower account power => do
      return { record := ← Actions.setVotingPower params record caller account power }
  | grantRole account role => do
      return { record := ← Actions.grantRole params record caller account role }
  | revokeRole account role => do
      return { record := ← Actions.revokeRole params record caller account role }
  | delegate target => do
      return { record := ← Delegations.delegate params record caller target }
  | snapshot proposalId account => do
      let taken ← Actions.snapshot params record proposalId account
      return {
        record := taken.record
        proposalId := proposalId.upTo? maxU32
        votingPower := taken.votingPower }
  | propose description => do
      let proposed ← Actions.propose params record caller now description
      return { record := proposed.record, proposalId := proposed.proposalId }
  | castVote proposalId support => do
      return { record := ← Actions.castVote params record caller proposalId support now }
  | submitVoteIntent proposalId support => do
      return {
        record := ← Actions.submitVoteIntent params record caller proposalId support }
  | cancel proposalId => do
      return { record := ← Actions.cancel params record caller proposalId now }
  | queue proposalId => do
      let scheduled ← Actions.queue params record proposalId now
      return {
        record := scheduled.record
        proposalId := proposalId.upTo? maxU32
        operationId := scheduled.operationId }
  | execute proposalId => do
      return {
        record := ← Execution.run params record caller proposalId now
        proposalId := proposalId.upTo? maxU32 }

end LedgerGovernance
