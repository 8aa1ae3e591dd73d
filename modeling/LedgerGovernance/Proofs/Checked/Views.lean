import LedgerGovernance.Ledger.Views
import LedgerGovernance.Proofs.Checked.Ballots
import LedgerGovernance.Proofs.Checked.Operations

/-! Views with every key and number checked. What is listed stands under an index that was
counted, and the operation of a proposal is looked for by an id that was read. -/

namespace LedgerGovernance

namespace Proposals

theorem at?_bounds {record : Text} {index : Nat} {proposal : Proposal}
    (found : at? record index = some proposal) :
    proposal.index = index ∧ proposal.id ≤ maxU32 := by
  simp only [at?, Option.bind_eq_bind, Option.bind_eq_some_iff, Option.pure_def,
    Option.some.injEq] at found
  rcases found with ⟨_, -, _, -, id, idEq, _, -, rfl⟩
  exact ⟨rfl, Text.readU32?_le idEq⟩

theorem mem_list {record : Text} {proposal : Proposal} (listed : proposal ∈ list record) :
    proposal.index ≤ maxU8 ∧ proposal.id ≤ maxU32 := by
  rcases List.mem_filterMap.mp listed with ⟨index, inside, found⟩
  rcases at?_bounds found with ⟨rfl, idFits⟩
  exact ⟨Record.le_of_mem_range inside, idFits⟩

end Proposals

namespace Checked

/-! ## Members -/

def memberView (record : Text) (member : Member) : Outcome MemberView := do
  let delegate ← delegateOf record member.account
  let effectiveVotes ← effectiveVotes record member.account
  return { member, delegate, effectiveVotes }

def memberViews (record : Text) : Outcome (List MemberView) := do
  (← members record).mapM (memberView record)

theorem memberViews_eq (record : Text) : memberViews record = .ok (Views.members record) := by
  rw [memberViews, members_eq, Outcome.ok_bind]
  refine mapM_eq fun member listed => ?_
  have size := (Members.mem_list listed).2
  rw [memberView, delegateOf_eq record size, Outcome.ok_bind, effectiveVotes_eq record size]
  rfl

/-! ## Operations -/

def operationView (params : Params) (record : Text) (now : Number) (operation : Operation) :
    Outcome OperationView := do
  let state ← operationState params record operation.index now
  return { operation, state }

theorem operationView_eq (params : Params) (record : Text) (now : Number)
    {operation : Operation} (fits : operation.index ≤ maxU8) :
    operationView params record now operation =
      .ok (Views.operation params record now operation) := by
  rw [operationView, operationState_eq params record fits]
  rfl

def viewOfOperation? (params : Params) (record : Text) (now : Number) (proposalId : Nat) :
    Outcome (Option OperationView) := do
  match ← attempt (operationOfProposal record proposalId) with
  | none => return none
  | some index =>
      match ← operationAt? record index with
      | none => return none
      | some operation => do return some (← operationView params record now operation)

theorem viewOfOperation?_eq (params : Params) (record : Text) (now : Number)
    {proposalId : Nat} (fits : proposalId ≤ maxU32) :
    viewOfOperation? params record now proposalId =
      .ok (Views.operationOf? params record now proposalId) := by
  rw [viewOfOperation?, operationOfProposal_eq record fits,
    attempt_eq (Operations.indexOfProposal_wellTyped record proposalId), Views.operationOf?]
  cases found : Operations.indexOfProposal record proposalId with
  | error fault => rfl
  | ok index =>
      have inside := Operations.indexOfProposal_le found
      dsimp only [Except.toOption, Outcome.ok_bind]
      rw [operationAt?_eq inside, Outcome.ok_bind]
      cases stored : Operations.at? record index with
      | none => rfl
      | some operation =>
          rw [← (Operations.at?_fields stored).1] at inside
          dsimp only
          rw [operationView_eq params record now inside]
          rfl

def describeOperation (params : Params) (record : Text) (operationId now : Number) :
    Outcome OperationView := do
  let id ← operationId.u32
  let index ← operationIndex record id
  match ← operationAt? record index with
  | some found => operationView params record now found
  | none => Outcome.refuse (.operationIncomplete id)

theorem describeOperation_eq (params : Params) (record : Text) {id : Nat}
    (fits : id ≤ maxU32) (now : Number) :
    describeOperation params record id now = Views.describeOperation params record id now := by
  rw [describeOperation, Views.describeOperation, Number.u32_natCast fits, Outcome.ok_bind,
    Outcome.ok_bind, operationIndex_eq record fits]
  refine Outcome.bind_congr fun index found => ?_
  have inside := Operations.indexOf_le found
  rw [operationAt?_eq inside, Outcome.ok_bind]
  cases stored : Operations.at? record index with
  | none => rfl
  | some operation =>
      rw [← (Operations.at?_fields stored).1] at inside
      exact operationView_eq params record now inside

/-! ## Proposals -/

def proposalView (params : Params) (record : Text) (now : Number) (proposal : Proposal) :
    Outcome ProposalView := do
  let total ← totalPower record
  let operation ← viewOfOperation? params record now proposal.id
  let state ← proposalState params record proposal.index now total
  let reached ← quorumReached params record proposal.index total
  let votes ← votesOn record proposal.index
  return {
    proposal, state
    quorumRequired := Members.quorum params total
    quorumReached := reached
    votes, operation }

theorem proposalView_eq (params : Params) (record : Text) (now : Number)
    {proposal : Proposal} (fits : proposal.index ≤ maxU8) (idFits : proposal.id ≤ maxU32) :
    proposalView params record now proposal =
      .ok (Views.proposal params record now proposal) := by
  simp only [proposalView, totalPower_eq, viewOfOperation?_eq params record now idFits,
    proposalState_eq params record fits, quorumReached_eq params record fits,
    votesOn_eq fits, Outcome.ok_bind]
  rfl

def proposalViews (params : Params) (record : Text) (now : Number) :
    Outcome (List ProposalView) := do
  (← proposals record).mapM (proposalView params record now)

theorem proposalViews_eq (params : Params) (record : Text) (now : Number) :
    proposalViews params record now = .ok (Views.proposals params record now) := by
  rw [proposalViews, proposals_eq, Outcome.ok_bind]
  exact mapM_eq fun proposal listed => proposalView_eq params record now
    (Proposals.mem_list listed).1 (Proposals.mem_list listed).2

def describeProposal (params : Params) (record : Text) (proposalId now : Number) :
    Outcome ProposalView := do
  let id ← proposalId.u32
  let index ← proposalIndex record id
  match ← proposalAt? record index with
  | some found => proposalView params record now found
  | none => Outcome.refuse (.proposalIncomplete id)

theorem describeProposal_eq (params : Params) (record : Text) {id : Nat}
    (fits : id ≤ maxU32) (now : Number) :
    describeProposal params record id now = Views.describeProposal params record id now := by
  rw [describeProposal, Views.describeProposal, Number.u32_natCast fits, Outcome.ok_bind,
    Outcome.ok_bind, proposalIndex_eq record fits]
  refine Outcome.bind_congr fun index found => ?_
  have inside := Proposals.indexOf_le found
  rw [proposalAt?_eq inside, Outcome.ok_bind]
  cases stored : Proposals.at? record index with
  | none => rfl
  | some proposal =>
      rcases Proposals.at?_bounds stored with ⟨rfl, idFits⟩
      exact proposalView_eq params record now inside idFits

end Checked

end LedgerGovernance
