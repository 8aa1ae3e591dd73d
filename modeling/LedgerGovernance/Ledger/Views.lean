import LedgerGovernance.Ledger.Ballots
import LedgerGovernance.Ledger.Delegations
import LedgerGovernance.Ledger.Operations

/-! What the record says about members, proposals and operations at a time, with
everything that is derived rather than stored put in. -/

namespace LedgerGovernance

structure MemberView where
  member : Member
  delegate : Account
  effectiveVotes : Nat
deriving DecidableEq, Repr

structure OperationView where
  operation : Operation
  state : OperationState
deriving DecidableEq, Repr

structure ProposalView where
  proposal : Proposal
  state : ProposalState
  quorumRequired : Int
  quorumReached : Bool
  votes : List Vote
  /-- Nothing where no operation was ever scheduled. -/
  operation : Option OperationView
deriving DecidableEq, Repr

namespace Views

def members (record : Text) : List MemberView :=
  let members := Members.list record
  members.map fun member => {
    member
    delegate := Delegations.delegateOf record member.account
    effectiveVotes := Delegations.votesAmong record members member.account }

def operation (params : Params) (record : Text) (now : Number) (operation : Operation) :
    OperationView where
  operation
  state := Operations.state params record operation.index now

/-- The operation scheduled last for a proposal. -/
def operationOf? (params : Params) (record : Text) (now : Number) (proposalId : Nat) :
    Option OperationView :=
  match Operations.indexOfProposal record proposalId with
  | .ok index => (Operations.at? record index).map (operation params record now)
  | .error _ => none

def proposal (params : Params) (record : Text) (now : Number) (proposal : Proposal) :
    ProposalView :=
  let total := Members.totalPower record
  { proposal
    state := Proposals.state params record proposal.index now total
    quorumRequired := Members.quorum params total
    quorumReached := Ballots.quorumReached params record proposal.index total
    votes := Ballots.list record proposal.index
    operation := operationOf? params record now proposal.id }

def proposals (params : Params) (record : Text) (now : Number) : List ProposalView :=
  (Proposals.list record).map (proposal params record now)

/-- The view of the proposal with an id. The first proposal stored under the id
counts, even where its other fields do not parse. -/
def describeProposal (params : Params) (record : Text) (proposalId now : Number) :
    Outcome ProposalView := do
  let id ← proposalId.u32
  let index ← Proposals.indexOf record id
  match Proposals.at? record index with
  | some found => return proposal params record now found
  | none => Outcome.refuse (.proposalIncomplete id)

def describeOperation (params : Params) (record : Text) (operationId now : Number) :
    Outcome OperationView := do
  let id ← operationId.u32
  let index ← Operations.indexOf record id
  match Operations.at? record index with
  | some found => return operation params record now found
  | none => Outcome.refuse (.operationIncomplete id)

end Views

end LedgerGovernance
