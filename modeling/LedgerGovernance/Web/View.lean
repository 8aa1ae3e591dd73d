import LedgerGovernance.Json
import LedgerGovernance.Ledger.Views

/-! Views as JSON. Amounts of 64 bits leave the library as decimal text, accounts
in hexadecimal, and states, roles and supports by their names. -/

namespace LedgerGovernance

namespace MemberView

def json (view : MemberView) : Json :=
  .object [
    ("index", view.member.index),
    ("account", view.member.account.text),
    ("votingPower", Json.amount view.member.votingPower),
    ("roles", .array ((Role.names view.member.roles).map .string)),
    ("delegate", view.delegate.text),
    ("effectiveVotes", Json.amount view.effectiveVotes)]

end MemberView

namespace Vote

def json (vote : Vote) : Json :=
  .object [
    ("voter", vote.voter.text),
    ("support", vote.support.name),
    ("weight", Json.amount vote.weight)]

end Vote

namespace OperationView

def json (view : OperationView) : Json :=
  .object [
    ("id", view.operation.id),
    ("proposalId", view.operation.proposalId),
    ("readyAt", view.operation.readyAt),
    ("state", view.state.name),
    ("predecessorId", view.operation.predecessorId)]

end OperationView

namespace ProposalView

def json (view : ProposalView) : Json :=
  .object [
    ("id", view.proposal.id),
    ("index", view.proposal.index),
    ("proposer", view.proposal.proposer.text),
    ("state", view.state.name),
    ("voteStart", view.proposal.voteStart),
    ("voteEnd", view.proposal.voteEnd),
    ("descriptionHash", view.proposal.description),
    ("forVotes", Json.amount view.proposal.forVotes),
    ("againstVotes", Json.amount view.proposal.againstVotes),
    ("abstainVotes", Json.amount view.proposal.abstainVotes),
    ("quorumRequired", Json.amount view.quorumRequired),
    ("quorumReached", view.quorumReached),
    ("votes", .array (view.votes.map Vote.json)),
    ("operation", Json.ofOption OperationView.json view.operation)]

end ProposalView

end LedgerGovernance
