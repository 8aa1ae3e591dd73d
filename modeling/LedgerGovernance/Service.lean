import LedgerGovernance.Dispatch
import LedgerGovernance.Ledger.Views

/-! The service that requests are handed to. Reads go to the host directly; every
change is dispatched as an action of its caller, and what it has changed is read
back from the host afterwards. -/

namespace LedgerGovernance

structure Service (σ : Type) where
  host : Host σ
  params : Params
  onExecute : Option (ExecutionHook σ) := none
  log : LogLine → StateM σ Unit := fun _ => pure ()

structure RecordView where
  record : Text
  bytes : Nat
  capacity : Nat
deriving DecidableEq, Repr

namespace Service

variable {σ : Type} (service : Service σ)

/-! ## Reading -/

def readRecord : Call σ Text := do
  match ← service.host.readRecord with
  | some record => return record
  | none => Call.refuse .recordUnreadable

def record : Call σ RecordView := do
  let record ← service.readRecord
  return {
    record
    bytes := Text.utf8Size record
    capacity := service.params.recordCapacity }

def members : Call σ (List MemberView) := do
  return Views.members (← service.readRecord)

def member? (account : Account) : Call σ (Option MemberView) := do
  return (← service.members).find? fun view => view.member.account == account

def member (account : Account) : Call σ MemberView := do
  match ← service.member? account with
  | some view => return view
  | none => Call.refuse .notAMember

def proposals : Call σ (List ProposalView) := do
  let record ← service.readRecord
  return Views.proposals service.params record (← service.host.currentTime)

def proposal (id : Number) : Call σ ProposalView := do
  let record ← service.readRecord
  let now ← service.host.currentTime
  Call.ofOutcome (Views.describeProposal service.params record id now)

def operation (id : Number) : Call σ OperationView := do
  let record ← service.readRecord
  let now ← service.host.currentTime
  Call.ofOutcome (Views.describeOperation service.params record id now)

/-! ## Changing -/

def dispatch (caller : Account) (action : Action) : Call σ Receipt :=
  let dispatcher : Dispatcher σ := {
    host := service.host.forCaller caller
    params := service.params
    onExecute := service.onExecute
    log := service.log }
  dispatcher.dispatch action

def selfRegister (caller : Account) : Call σ MemberView := do
  let _ ← service.dispatch caller .selfRegister
  service.member caller

def setVotingPower (caller account : Account) (power : Int) : Call σ MemberView := do
  let _ ← service.dispatch caller (.setVotingPower account power)
  service.member account

def grantRole (caller account : Account) (role : Number) : Call σ MemberView := do
  let _ ← service.dispatch caller (.grantRole account role)
  service.member account

def revokeRole (caller account : Account) (role : Number) : Call σ MemberView := do
  let _ ← service.dispatch caller (.revokeRole account role)
  service.member account

def delegate (caller target : Account) : Call σ Unit := do
  let _ ← service.dispatch caller (.delegate target)

def propose (caller : Account) (description : Option Number) : Call σ ProposalView := do
  match (← service.dispatch caller (.propose description)).proposalId with
  | some id => service.proposal id
  | none => Call.refuse .noProposalReceipt

def castVote (caller : Account) (proposalId support : Number) : Call σ ProposalView := do
  let _ ← service.dispatch caller (.castVote proposalId support)
  service.proposal proposalId

def submitVoteIntent (caller : Account) (proposalId support : Number) : Call σ Unit := do
  let _ ← service.dispatch caller (.submitVoteIntent proposalId support)

/-- The power in the snapshot, taken now or before. -/
def snapshot (caller : Account) (proposalId : Number) (account : Account) : Call σ Nat := do
  return (← service.dispatch caller (.snapshot proposalId account)).votingPower.getD 0

def cancel (caller : Account) (proposalId : Number) : Call σ ProposalView := do
  let _ ← service.dispatch caller (.cancel proposalId)
  service.proposal proposalId

def queue (caller : Account) (proposalId : Number) : Call σ ProposalView := do
  let _ ← service.dispatch caller (.queue proposalId)
  service.proposal proposalId

def execute (caller : Account) (proposalId : Number) : Call σ ProposalView := do
  let _ ← service.dispatch caller (.execute proposalId)
  service.proposal proposalId

/-! ## The first admin -/

/-- The mask of all roles. -/
def everyRole : Nat :=
  Role.all.foldr (fun role mask => role.bit ||| mask) 0

example : everyRole = 7 := by decide

/-- Gives an account every role, unless it has them all. -/
def seedAdmin (account : Account) : Call σ Unit := do
  let record ← service.readRecord
  let roles := Members.roles record account
  unless roles &&& everyRole = everyRole do
    let seeded ← Call.ofOutcome (Members.set service.params record account
      (Members.votes record account) (roles ||| everyRole : Nat))
    if ← service.host.writeRecord seeded then
      service.log (.adminSeeded (Members.list seeded).length)
    else
      Call.refuse .seededRecordRefused

end Service

end LedgerGovernance
