import LedgerGovernance.Record.IndexedKey
import LedgerGovernance.Record.Lookup

/-! The keys of a ledger record, one family of keys for each kind of fact that
it stores:

    proposal_count=2
    prop_0_id=…;prop_0_proposer=<account>;prop_0_state=0;…
    member_count=1;member_0=<account>:<power>:<roles>
    vote_0_0=<account>:<support>:<weight>
    delegate_<account>=<account>
    snap_<proposal id>_<account>=<power>
    op_count=1;op_0_id=…;op_0_prop=…;op_0_ready=…;op_0_state=1
    sigvote_<proposal id>_<account>=<support>
    _lock=0
-/

namespace LedgerGovernance

inductive ProposalField where
  | id
  | proposer
  | state
  | voteStart
  | voteEnd
  | inFavor
  | against
  | abstain
  | description
deriving DecidableEq, Repr

namespace ProposalField

def all : List ProposalField :=
  [id, proposer, state, voteStart, voteEnd, inFavor, against, abstain, description]

def name : ProposalField → String
  | id => "id"
  | proposer => "proposer"
  | state => "state"
  | voteStart => "start"
  | voteEnd => "end"
  | inFavor => "for"
  | against => "against"
  | abstain => "abstain"
  | description => "desc"

def ofName? (name : String) : Option ProposalField :=
  all.find? fun field => field.name == name

end ProposalField

inductive OperationField where
  | id
  | proposal
  | ready
  | state
  | predecessor
deriving DecidableEq, Repr

namespace OperationField

def all : List OperationField :=
  [id, proposal, ready, state, predecessor]

def name : OperationField → String
  | id => "id"
  | proposal => "prop"
  | ready => "ready"
  | state => "state"
  | predecessor => "predecessor"

def ofName? (name : String) : Option OperationField :=
  all.find? fun field => field.name == name

end OperationField

inductive Key where
  | proposalCount
  | memberCount
  | operationCount
  | lock
  | proposal (index : Nat) (field : ProposalField)
  | member (index : Nat)
  | vote (voted index : Nat)
  | operation (index : Nat) (field : OperationField)
  | delegate (account : Account)
  | snapshot (proposalId : Nat) (account : Account)
  | intent (proposalId : Nat) (account : Account)
deriving DecidableEq, Repr

namespace Key

/-! ## Stems and endings -/

def proposalStem : Text := "prop_".toList

def memberStem : Text := "member_".toList

def voteStem : Text := "vote_".toList

def operationStem : Text := "op_".toList

def proposalEnding (field : ProposalField) : Text := '_' :: field.name.toList

def operationEnding (field : OperationField) : Text := '_' :: field.name.toList

/-! ## Keys that end in an account -/

def delegateText (account : Text) : Text :=
  "delegate_".toList ++ account

def snapshotText (proposalId : Nat) (account : Text) : Text :=
  "snap_".toList ++ Text.decimal proposalId ++ '_' :: account

def intentText (proposalId : Nat) (account : Text) : Text :=
  "sigvote_".toList ++ Text.decimal proposalId ++ '_' :: account

/-! ## The text of a key -/

def text : Key → Text
  | proposalCount => "proposal_count".toList
  | memberCount => "member_count".toList
  | operationCount => "op_count".toList
  | lock => "_lock".toList
  | proposal index field => IndexedKey.write proposalStem index (proposalEnding field)
  | member index => IndexedKey.write memberStem index []
  | vote voted index =>
      IndexedKey.write (IndexedKey.write voteStem voted ['_']) index []
  | operation index field => IndexedKey.write operationStem index (operationEnding field)
  | delegate account => delegateText (Text.hex account)
  | snapshot proposalId account => snapshotText proposalId (Text.hex account)
  | intent proposalId account => intentText proposalId (Text.hex account)

example : (vote 1 12).text = "vote_1_12".toList := by decide

example : (proposal 0 .voteEnd).text = "prop_0_end".toList := by decide

/-! ## Keys from arguments -/

def ofProposal (index : Number) (field : ProposalField) : Outcome Key := do
  return proposal (← index.keyIndex) field

def ofMember (index : Number) : Outcome Key := do
  return member (← index.keyIndex)

def ofVote (voted index : Number) : Outcome Key := do
  let voted ← voted.keyIndex
  return vote voted (← index.keyIndex)

def ofOperation (index : Number) (field : OperationField) : Outcome Key := do
  return operation (← index.keyIndex) field

end Key

namespace Record

/-- The value stored under a key. -/
def read? (record : Text) (key : Key) : Option Text :=
  findValue record key.text

/-- A counter; zero when it is absent or no counter. -/
def readCount (record : Text) (key : Text) : Nat :=
  ((findValue record key).bind Text.readCount?).getD 0

end Record

end LedgerGovernance
