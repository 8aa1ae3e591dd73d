import LedgerGovernance.Digest
import LedgerGovernance.Ledger.Members

/-! Proposals, and the lock that guards an execution. Canceled, Queued, Executed
and Expired are stored as such; every other state of a proposal is derived from
the time and the tallies when it is read. Only the proposer may cancel a
proposal, and only while it is Pending. -/

namespace LedgerGovernance

structure Proposal where
  index : Nat
  id : Nat
  proposer : Account
  voteStart : Nat
  voteEnd : Nat
  /-- Authoritative only for the explicit states. -/
  storedState : ProposalState
  forVotes : Nat
  againstVotes : Nat
  abstainVotes : Nat
  description : Nat
deriving DecidableEq, Repr

namespace Proposals

/-! ## Fields -/

def field? (record : Text) (index : Nat) (field : ProposalField) : Option Text :=
  Record.read? record (.proposal index field)

/-- A 32-bit field; zero when it is absent or malformed. -/
def word (record : Text) (index : Nat) (field : ProposalField) : Nat :=
  ((field? record index field).bind Text.readU32?).getD 0

/-- A 64-bit field; zero when it is absent or malformed. -/
def amount (record : Text) (index : Nat) (field : ProposalField) : Nat :=
  ((field? record index field).bind Text.readU64?).getD 0

/-- The stored state; Pending when it is absent or malformed. -/
def storedState (record : Text) (index : Nat) : ProposalState :=
  (((field? record index .state).bind Text.readCount?).bind ProposalState.ofCode?).getD
    .pending

/-! ## Reading -/

def count (record : Text) : Nat :=
  Record.readCount record Key.proposalCount.text

/-- The proposal at an index. It needs an id and a proposer that parse; its
other fields may be missing. -/
def at? (record : Text) (index : Nat) : Option Proposal := do
  let id ← field? record index .id
  let proposer ← field? record index .proposer
  let id ← Text.readU32? id
  let proposer ← Account.ofHex? proposer
  return {
    index, id, proposer
    voteStart := word record index .voteStart
    voteEnd := word record index .voteEnd
    storedState := storedState record index
    forVotes := amount record index .inFavor
    againstVotes := amount record index .against
    abstainVotes := amount record index .abstain
    description := word record index .description }

def list (record : Text) : List Proposal :=
  (List.range (count record)).filterMap (at? record)

/-- The first index whose stored id is written exactly as the id would be. -/
def indexOf (record : Text) (id : Nat) : Outcome Nat :=
  let found := (List.range (count record)).find? fun index =>
    field? record index .id == some (Text.decimal id)
  match found with
  | some index => .ok index
  | none => Outcome.refuse (.noProposalWithId id)

/-- The state at a time and a total power. A vote that has ended is Defeated
unless the votes for and the abstentions reach the quorum and the votes for
exceed the votes against. -/
def state (params : Params) (record : Text) (index : Nat) (now : Number) (total : Int) :
    ProposalState :=
  let stored := storedState record index
  if stored.isExplicit then stored
  else if now < (word record index .voteStart : Number) then .pending
  else if now ≤ (word record index .voteEnd : Number) then .active
  else
    let forVotes := amount record index .inFavor
    let againstVotes := amount record index .against
    let abstainVotes := amount record index .abstain
    if Amount.saturatingAdd forVotes abstainVotes < Members.quorum params total then
      .defeated
    else if againstVotes < forVotes then .succeeded
    else .defeated

/-! ## Writing -/

structure Proposed where
  record : Text
  proposalId : Nat
  index : Nat
deriving DecidableEq, Repr

/-- Creates a proposal. The counter moves to the end of the record, and the
fields of the new proposal follow it. -/
def propose (params : Params) (record : Text) (proposer : Account)
    (description now : Number) (votes : Int) : Outcome Proposed :=
  let index := count record
  if votes < params.proposalThreshold then
    Outcome.refuse (.belowThreshold votes params.proposalThreshold)
  else if params.maxProposals ≤ index then
    Outcome.refuse (.proposalLimit params.maxProposals)
  else
    let voteStart := now.checkedAdd params.votingDelay
    let voteEnd := voteStart.bind fun start => start.checkedAdd params.votingPeriod
    match voteStart, voteEnd with
    | some voteStart, some voteEnd => do
        let id ← Digest.proposalId proposer description now index
        let hex ← proposer.hex
        let voteStart ← voteStart.u32
        let voteEnd ← voteEnd.u32
        let description ← description.u32
        let entry := fun (field : ProposalField) (value : Text) =>
          ((Key.proposal index field).text, value)
        let draft ← ((Draft.ofRecord record).remove Key.proposalCount.text).appendAll [
          (Key.proposalCount.text, Text.decimal (index + 1)),
          entry .id (Text.decimal id),
          entry .proposer hex,
          entry .state (Text.decimal ProposalState.pending.code),
          entry .voteStart (Text.decimal voteStart),
          entry .voteEnd (Text.decimal voteEnd),
          entry .inFavor (Text.decimal 0),
          entry .against (Text.decimal 0),
          entry .abstain (Text.decimal 0),
          entry .description (Text.decimal description)]
        let record ← draft.encode params.recordCapacity
        return { record, proposalId := id, index }
    | _, _ => Outcome.refuse (.votingWindow now)

/-- Overwrites the stored state of a proposal that has one. -/
def setState (params : Params) (record : Text) (index code : Nat) : Outcome Text := do
  match ← (Draft.ofRecord record).replace? (Key.proposal index .state).text
      (Text.decimal code) with
  | some draft => draft.encode params.recordCapacity
  | none => Outcome.refuse (.noProposalAt index)

def cancel (params : Params) (record : Text) (index : Nat) (caller : Account)
    (now : Number) (total : Int) : Outcome Text :=
  match field? record index .proposer with
  | none => Outcome.refuse (.noProposalAt index)
  | some proposer =>
      if Account.ofHex? proposer = some caller then
        match state params record index now total with
        | .pending => setState params record index ProposalState.canceled.code
        | other => Outcome.refuse (.notPending other)
      else
        Outcome.refuse .notProposer

/-! ## The lock -/

def isLocked (record : Text) : Bool :=
  Record.read? record .lock == some ['1']

def setLock (params : Params) (record : Text) (locked : Bool) : Outcome Text := do
  let draft ← (Draft.ofRecord record).set Key.lock.text [if locked then '1' else '0']
  draft.encode params.recordCapacity

end Proposals

end LedgerGovernance
