import LedgerGovernance.Action
import LedgerGovernance.Proofs.Checked.Ballots
import LedgerGovernance.Proofs.Checked.Operations

/-! Actions with every key and number checked. An action never leads to a key that cannot be
built or to a number that cannot be written: with accounts of twenty bytes and with ids,
descriptions and times of 32 bits, the checks change nothing, on any record. -/

namespace LedgerGovernance

/-! ## Arguments of the right type -/

/-- The number fits in a field of 32 bits. -/
def Number.IsWord (number : Number) : Prop :=
  ∃ value : Nat, value ≤ maxU32 ∧ number = (value : Number)

/-- The accounts of an action have twenty bytes, and its ids and its description fit in 32
bits. Nothing is asked of powers, roles and supports. -/
def Action.WellTyped : Action → Prop
  | .selfRegister => True
  | .setVotingPower account _ | .grantRole account _ | .revokeRole account _ =>
      account.length = Account.size
  | .delegate target => target.length = Account.size
  | .snapshot proposalId account => proposalId.IsWord ∧ account.length = Account.size
  | .propose description => ∀ number ∈ description, number.IsWord
  | .castVote proposalId _ | .submitVoteIntent proposalId _ | .cancel proposalId
  | .queue proposalId | .execute proposalId => proposalId.IsWord

theorem Digest.descriptionOfTime_le (now : Number) : descriptionOfTime now ≤ maxU32 :=
  Nat.le_of_lt_succ (BitVec.isLt _)

/-- The time stands in for a description that is not given. -/
theorem Digest.description_isWord (now : Number) {description : Option Number}
    (wellTyped : ∀ number ∈ description, number.IsWord) :
    (description.getD (descriptionOfTime now : Nat)).IsWord := by
  cases description with
  | none => exact ⟨_, descriptionOfTime_le now, rfl⟩
  | some number => exact wellTyped number rfl

namespace Checked

/-! ## Members -/

def selfRegister (params : Params) (record : Text) (caller : Account) : Outcome Text := do
  match ← member? record caller with
  | some _ => return record
  | none => setMember params record caller params.selfRegisterPower 0

def setVotingPower (params : Params) (record : Text) (caller account : Account)
    (power : Int) : Outcome Text := do
  requireRole record caller .admin
  let roles ← roles record account
  setMember params record account power roles

def grantRole (params : Params) (record : Text) (caller account : Account)
    (role : Number) : Outcome Text := do
  requireRole record caller .admin
  let power ← votes record account
  let roles ← roles record account
  setMember params record account power (Members.withRoles roles role)

def revokeRole (params : Params) (record : Text) (caller account : Account)
    (role : Number) : Outcome Text := do
  requireRole record caller .admin
  let power ← votes record account
  let roles ← roles record account
  setMember params record account power (Members.withoutRoles roles role)

/-! ## Proposals -/

def addressed (record : Text) (proposalId : Number) : Outcome Nat := do
  proposalIndex record (← proposalId.u32)

def takeSnapshot (params : Params) (record : Text) (proposalId : Number)
    (account : Account) : Outcome Delegations.Snapshot := do
  let _ ← addressed record proposalId
  snapshot params record proposalId account

def openProposal (params : Params) (record : Text) (caller : Account) (now : Number)
    (description : Option Number) : Outcome Proposals.Proposed := do
  let votes ← effectiveVotes record caller
  propose params record caller (description.getD (Digest.descriptionOfTime now : Nat)) now
    votes

def castVote (params : Params) (record : Text) (caller : Account)
    (proposalId support now : Number) : Outcome Text := do
  let index ← addressed record proposalId
  let weight ← effectiveVotes record caller
  let total ← totalPower record
  let support ← Ballots.judgeSupport support
  cast params record index caller support weight now total

def submitVoteIntent (params : Params) (record : Text) (caller : Account)
    (proposalId support : Number) : Outcome Text := do
  let _ ← addressed record proposalId
  submit params record proposalId support caller

def cancelProposal (params : Params) (record : Text) (caller : Account)
    (proposalId now : Number) : Outcome Text := do
  let index ← addressed record proposalId
  let total ← totalPower record
  cancel params record index caller now total

def queue (params : Params) (record : Text) (proposalId now : Number) :
    Outcome Operations.Scheduled := do
  let id ← proposalId.u32
  let index ← proposalIndex record id
  let total ← totalPower record
  if (← proposalState params record index now total) ≠ .succeeded then
    Outcome.refuse (.notSucceeded id)
  else
    let scheduled ← schedule params record proposalId now (params.timelockMinDelay : Number)
    let record ← setProposalState params scheduled.record index ProposalState.queued.code
    return { scheduled with record }

/-! ## Execution -/

def start (params : Params) (record : Text) (caller : Account) : Outcome Text := do
  requireRole record caller .executor
  if (← read? record .lock) == some ['1'] then
    Outcome.refuse .executionInProgress
  else
    setLock params record true

def markExecuted (params : Params) (record : Text) (proposalId : Nat) : Outcome Text := do
  match ← attempt (proposalIndex record proposalId) with
  | some index => setProposalState params record index ProposalState.executed.code
  | none => return record

def validate (params : Params) (record : Text) (proposalId now : Number) : Outcome Nat := do
  let index ← operationOfProposal record (← proposalId.u32)
  checkExecutable params record index now
  return index

def complete (params : Params) (locked : Text) (proposalId now : Number) :
    Outcome Text := do
  let proposalId ← proposalId.u32
  let index ← operationOfProposal locked proposalId
  let record ← executeInOrder params locked index now
  let record ← markExecuted params record proposalId
  setLock params record false

def execute (params : Params) (record : Text) (caller : Account) (proposalId now : Number) :
    Outcome Text := do
  let locked ← start params record caller
  complete params locked proposalId now

/-- Applies an action on behalf of `caller` at the time `now`, with every check made. -/
def apply (params : Params) (record : Text) (caller : Account) (now : Number) :
    Action → Outcome Receipt
  | .selfRegister => do
      return { record := ← selfRegister params record caller }
  | .setVotingPower account power => do
      return { record := ← setVotingPower params record caller account power }
  | .grantRole account role => do
      return { record := ← grantRole params record caller account role }
  | .revokeRole account role => do
      return { record := ← revokeRole params record caller account role }
  | .delegate target => do
      return { record := ← setDelegate params record caller target }
  | .snapshot proposalId account => do
      let taken ← takeSnapshot params record proposalId account
      return {
        record := taken.record
        proposalId := proposalId.upTo? maxU32
        votingPower := taken.votingPower }
  | .propose description => do
      let proposed ← openProposal params record caller now description
      return { record := proposed.record, proposalId := proposed.proposalId }
  | .castVote proposalId support => do
      return { record := ← castVote params record caller proposalId support now }
  | .submitVoteIntent proposalId support => do
      return { record := ← submitVoteIntent params record caller proposalId support }
  | .cancel proposalId => do
      return { record := ← cancelProposal params record caller proposalId now }
  | .queue proposalId => do
      let scheduled ← queue params record proposalId now
      return {
        record := scheduled.record
        proposalId := proposalId.upTo? maxU32
        operationId := scheduled.operationId }
  | .execute proposalId => do
      return {
        record := ← execute params record caller proposalId now
        proposalId := proposalId.upTo? maxU32 }

/-! ## The checks change nothing -/

section

variable (params : Params) (record : Text) {caller account : Account}
  (callerSize : caller.length = Account.size) (size : account.length = Account.size)
  {id now : Nat} (idFits : id ≤ maxU32) (nowFits : now ≤ maxU32)

include callerSize in
theorem selfRegister_eq :
    selfRegister params record caller = Actions.selfRegister params record caller := by
  rw [selfRegister, member?_eq, Outcome.ok_bind, setMember_eq params record callerSize]
  rfl

include size in
theorem setVotingPower_eq (power : Int) :
    setVotingPower params record caller account power =
      Actions.setVotingPower params record caller account power := by
  simp only [setVotingPower, requireRole_eq, roles_eq, Outcome.ok_bind,
    setMember_eq params record size]
  rfl

include size in
theorem grantRole_eq (role : Number) :
    grantRole params record caller account role =
      Actions.grantRole params record caller account role := by
  simp only [grantRole, requireRole_eq, votes_eq, roles_eq, Outcome.ok_bind,
    setMember_eq params record size]
  rfl

include size in
theorem revokeRole_eq (role : Number) :
    revokeRole params record caller account role =
      Actions.revokeRole params record caller account role := by
  simp only [revokeRole, requireRole_eq, votes_eq, roles_eq, Outcome.ok_bind,
    setMember_eq params record size]
  rfl

include idFits in
theorem addressed_eq : addressed record (id : Number) = Actions.addressed record id := by
  rw [addressed, Actions.addressed, Number.u32_natCast idFits, Outcome.ok_bind,
    Outcome.ok_bind, proposalIndex_eq record idFits]

theorem addressed_le {proposalId : Number} {index : Nat}
    (found : Actions.addressed record proposalId = .ok index) : index ≤ maxU8 := by
  rcases Outcome.bind_eq_ok.mp found with ⟨id, -, found⟩
  exact Proposals.indexOf_le found

include size in
theorem readEffectiveVotes_eq :
    effectiveVotes record account = Delegations.readEffectiveVotes record account := by
  rw [effectiveVotes_eq record size, Delegations.readEffectiveVotes, Account.hex_of_size size]
  rfl

include size idFits in
theorem takeSnapshot_eq :
    takeSnapshot params record (id : Number) account =
      Actions.snapshot params record id account := by
  rw [takeSnapshot, addressed_eq record idFits, snapshot_eq params record idFits size]
  rfl

include callerSize nowFits in
theorem openProposal_eq {description : Option Number}
    (wellTyped : ∀ number ∈ description, number.IsWord) :
    openProposal params record caller now description =
      Actions.propose params record caller now description := by
  rcases Digest.description_isWord now wellTyped with ⟨hash, hashFits, hashEq⟩
  simp only [openProposal, Actions.propose, hashEq, readEffectiveVotes_eq record callerSize,
    propose_eq params record callerSize hashFits nowFits]

include callerSize idFits in
theorem castVote_eq (support : Number) (now : Number) :
    castVote params record caller id support now =
      Actions.castVote params record caller id support now := by
  simp only [castVote, Actions.castVote, addressed_eq record idFits,
    readEffectiveVotes_eq record callerSize, totalPower_eq, Outcome.ok_bind]
  refine Outcome.bind_congr fun index found => ?_
  simp only [cast_eq params record (addressed_le record found) callerSize]

include callerSize idFits in
theorem submitVoteIntent_eq (support : Number) :
    submitVoteIntent params record caller id support =
      Actions.submitVoteIntent params record caller id support := by
  rw [submitVoteIntent, addressed_eq record idFits,
    submit_eq params record idFits support callerSize]
  rfl

include idFits in
theorem cancelProposal_eq (now : Number) :
    cancelProposal params record caller id now =
      Actions.cancel params record caller id now := by
  simp only [cancelProposal, Actions.cancel, addressed_eq record idFits, totalPower_eq,
    Outcome.ok_bind]
  exact Outcome.bind_congr fun index found =>
    cancel_eq params record (addressed_le record found) caller now _

include idFits nowFits in
theorem queue_eq : queue params record id now = Actions.queue params record id now := by
  rw [queue, Actions.queue, Number.u32_natCast idFits, Outcome.ok_bind, Outcome.ok_bind,
    proposalIndex_eq record idFits]
  refine Outcome.bind_congr fun index found => ?_
  have fits := Proposals.indexOf_le found
  simp only [totalPower_eq, proposalState_eq params record fits, Outcome.ok_bind,
    schedule_eq params record idFits nowFits params.timelockMinDelay_le,
    setProposalState_eq params _ fits]

theorem start_eq : start params record caller = Execution.start params record caller := by
  rw [start, requireRole_eq]
  rfl

include idFits in
theorem validate_eq (now : Number) :
    validate params record id now = Execution.validate params record id now := by
  rw [validate, Execution.validate, Number.u32_natCast idFits, Outcome.ok_bind,
    Outcome.ok_bind, operationOfProposal_eq record idFits]
  refine Outcome.bind_congr fun index found => ?_
  rw [checkExecutable_eq params record (Operations.indexOfProposal_le found)]

include idFits in
theorem markExecuted_eq :
    markExecuted params record id = Execution.markExecuted params record id := by
  rw [markExecuted, proposalIndex_eq record idFits,
    attempt_eq (Proposals.indexOf_wellTyped record id), Execution.markExecuted]
  cases found : Proposals.indexOf record id with
  | error fault => rfl
  | ok index => exact setProposalState_eq params record (Proposals.indexOf_le found) .executed

include idFits in
theorem complete_eq (now : Number) :
    complete params record id now = Execution.complete params record id now := by
  rw [complete, Execution.complete, Number.u32_natCast idFits, Outcome.ok_bind,
    Outcome.ok_bind, operationOfProposal_eq record idFits]
  refine Outcome.bind_congr fun index found => ?_
  simp only [executeInOrder_eq params record (Operations.indexOfProposal_le found),
    markExecuted_eq params _ idFits]
  rfl

include idFits in
theorem execute_eq (now : Number) :
    execute params record caller id now = Execution.run params record caller id now := by
  simp only [execute, Execution.run, start_eq, complete_eq params _ idFits]

include callerSize nowFits in
theorem apply_eq {action : Action} (wellTyped : action.WellTyped) :
    apply params record caller now action = action.apply params record caller now := by
  cases action with
  | selfRegister => rw [apply, selfRegister_eq params record callerSize]; rfl
  | setVotingPower account power => rw [apply, setVotingPower_eq params record wellTyped]; rfl
  | grantRole account role => rw [apply, grantRole_eq params record wellTyped]; rfl
  | revokeRole account role => rw [apply, revokeRole_eq params record wellTyped]; rfl
  | delegate target => rw [apply, setDelegate_eq params record callerSize]; rfl
  | snapshot proposalId account =>
      rcases wellTyped with ⟨⟨id, fits, rfl⟩, size⟩
      rw [apply, takeSnapshot_eq params record size fits]
      rfl
  | propose description =>
      rw [apply, openProposal_eq params record callerSize nowFits wellTyped]
      rfl
  | castVote proposalId support =>
      rcases wellTyped with ⟨id, fits, rfl⟩
      rw [apply, castVote_eq params record callerSize fits]
      rfl
  | submitVoteIntent proposalId support =>
      rcases wellTyped with ⟨id, fits, rfl⟩
      rw [apply, submitVoteIntent_eq params record callerSize fits]
      rfl
  | cancel proposalId =>
      rcases wellTyped with ⟨id, fits, rfl⟩
      rw [apply, cancelProposal_eq params record fits]
      rfl
  | queue proposalId =>
      rcases wellTyped with ⟨id, fits, rfl⟩
      rw [apply, queue_eq params record fits nowFits]
      rfl
  | execute proposalId =>
      rcases wellTyped with ⟨id, fits, rfl⟩
      rw [apply, execute_eq params record fits]
      rfl

end

end Checked

end LedgerGovernance
