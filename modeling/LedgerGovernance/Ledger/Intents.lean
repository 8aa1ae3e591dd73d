import LedgerGovernance.Digest
import LedgerGovernance.Params
import LedgerGovernance.Record.Key

/-! Votes by signature. The message that is signed binds a domain, an action, a
proposal, a support and a voter. Only the intent is recorded here; whoever takes
in the signature verifies it. -/

namespace LedgerGovernance

namespace Intents

/-! ## Messages -/

def messageStem : Text := "civitas:vote:".toList

def message (proposalId support : Number) (voter : Account) : Outcome Text := do
  let proposalId ← proposalId.u32
  let hex ← voter.hex
  return messageStem ++ Text.decimal proposalId ++ ':' :: (support.text.toList ++ ':' :: hex)

/-- The low 32 bits of the digest of a message; zero is possible here. -/
def messageHash (message : Text) : Nat :=
  (Digest.ofFields [(String.ofList message).toUTF8.toList]).toUInt32.toNat

/-- A vote needs a known support, a proposal and a voter other than zero. -/
def isWellFormed (proposalId support : Number) (voter : Account) : Bool :=
  (VoteSupport.ofNumber? support).isSome && proposalId != 0 && !Account.isZero voter

/-! ## Records -/

/-- Records a vote intent; a second one of the same voter for the same proposal
is refused. -/
def submit (params : Params) (record : Text) (proposalId support : Number)
    (voter : Account) : Outcome Text :=
  if !isWellFormed proposalId support voter then
    Outcome.refuse .malformedIntent
  else do
    let _ ← voter.hex
    let proposalId ← proposalId.u32
    let key := Key.intent proposalId voter
    if (Record.read? record key).isSome then
      Outcome.refuse (.intentRecorded voter)
    else
      let support ← support.u32
      let draft ← (Draft.ofRecord record).append key.text (Text.decimal support)
      draft.encode params.recordCapacity

/-- The support in a recorded intent. -/
def find? (record : Text) (proposalId : Nat) (voter : Account) : Option VoteSupport :=
  ((Record.read? record (.intent proposalId voter)).bind Text.readCount?).bind
    VoteSupport.ofCode?

def read? (record : Text) (proposalId : Number) (voter : Account) :
    Outcome (Option VoteSupport) := do
  let _ ← voter.hex
  return find? record (← proposalId.u32) voter

end Intents

end LedgerGovernance
