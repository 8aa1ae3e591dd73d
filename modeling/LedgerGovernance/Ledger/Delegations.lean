import LedgerGovernance.Ledger.Members

/-! Delegation and snapshots of voting power. An account without an entry votes
for itself. Delegation goes one level: what is delegated to an account does not
follow that account's own delegation. A snapshot is taken once for a proposal
and an account and stays as it is. -/

namespace LedgerGovernance

namespace Delegations

/-- Delegates the votes of `voter` to `target`; delegating to oneself removes
the stored delegation. -/
def delegate (params : Params) (record : Text) (voter target : Account) :
    Outcome Text := do
  let _ ← voter.hex
  let key := (Key.delegate voter).text
  let draft := Draft.ofRecord record
  if voter = target then
    (draft.remove key).encode params.recordCapacity
  else
    let draft ← draft.set key (← target.hex)
    draft.encode params.recordCapacity

/-- The account that votes for `account`. -/
def delegateOf (record : Text) (account : Account) : Account :=
  ((Record.read? record (.delegate account)).bind Account.ofHex?).getD account

/-- The power that an account votes with among some members: its own unless it has
delegated it, and that of every other member that has delegated to it. -/
def votesAmong (record : Text) (members : List Member) (account : Account) : Nat :=
  let own := if delegateOf record account = account then Members.votes record account else 0
  members.foldl (fun total member =>
    if member.account ≠ account ∧ delegateOf record member.account = account then
      Members.addPower total member.votingPower
    else total) own

def effectiveVotes (record : Text) (account : Account) : Nat :=
  votesAmong record (Members.list record) account

structure Snapshot where
  record : Text
  votingPower : Nat
deriving DecidableEq, Repr

/-- Stores the effective votes of an account for a proposal. Where a snapshot is
stored already, the record stays as it is and the stored power is returned. -/
def snapshot (params : Params) (record : Text) (proposalId : Number) (account : Account) :
    Outcome Snapshot := do
  let _ ← account.hex
  let proposalId ← proposalId.u32
  let key := Key.snapshot proposalId account
  match (Record.read? record key).bind Text.readU64? with
  | some votingPower => return { record, votingPower }
  | none =>
      let votingPower := effectiveVotes record account
      let power ← Amount.u64 votingPower
      let draft ← (Draft.ofRecord record).set key.text (Text.decimal power)
      let record ← draft.encode params.recordCapacity
      return { record, votingPower }

/-- The power in a stored snapshot, zero where there is none. -/
def snapshotVotes (record : Text) (proposalId : Nat) (account : Account) : Nat :=
  ((Record.read? record (.snapshot proposalId account)).bind Text.readU64?).getD 0

/-! ## Reading for an account from outside

A byte string that is no account has no delegation and no snapshot to look for;
it is refused before the record is read. -/

def readDelegate (record : Text) (account : Account) : Outcome Account := do
  let _ ← account.hex
  return delegateOf record account

def readEffectiveVotes (record : Text) (account : Account) : Outcome Nat := do
  let _ ← account.hex
  return effectiveVotes record account

def readSnapshot (record : Text) (proposalId : Number) (account : Account) :
    Outcome Nat := do
  let _ ← account.hex
  return snapshotVotes record (← proposalId.u32) account

end Delegations

end LedgerGovernance
