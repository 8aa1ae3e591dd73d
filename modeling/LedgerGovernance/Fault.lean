import LedgerGovernance.Account
import LedgerGovernance.Number.Shortest
import LedgerGovernance.Vocabulary

/-! Why a call has no result. A refusal is an answer of the governance rules: it
carries a code, and a dispatched action reports that code's exit code to its
host. An ill-typed argument is a value that no field of a record could hold. -/

namespace LedgerGovernance

/-! ## Codes -/

inductive ErrorCode where
  | wrongAccount
  | tooEarly
  | notApproved
  | dataRead
  | hostCall
  | badConfig
  | alreadyVoted
  | proposalNotActive
  | belowThreshold
  | maxProposals
  | notProposer
  | notExecutor
  | opNotReady
  | opAlreadyQueued
  | proposalNotFound
  | invalidVote
  | quorumNotMet
  | notAdmin
  | overflow
  | reentrant
  | opExpired
  | callerVerification
  | recordFull
  | notMember
deriving DecidableEq, Repr

namespace ErrorCode

def all : List ErrorCode :=
  [wrongAccount, tooEarly, notApproved, dataRead, hostCall, badConfig,
    alreadyVoted, proposalNotActive, belowThreshold, maxProposals, notProposer,
    notExecutor, opNotReady, opAlreadyQueued, proposalNotFound, invalidVote,
    quorumNotMet, notAdmin, overflow, reentrant, opExpired, callerVerification,
    recordFull, notMember]

def name : ErrorCode → String
  | wrongAccount => "WRONG_ACCOUNT"
  | tooEarly => "TOO_EARLY"
  | notApproved => "NOT_APPROVED"
  | dataRead => "DATA_READ"
  | hostCall => "HOST_CALL"
  | badConfig => "BAD_CONFIG"
  | alreadyVoted => "ALREADY_VOTED"
  | proposalNotActive => "PROPOSAL_NOT_ACTIVE"
  | belowThreshold => "BELOW_THRESHOLD"
  | maxProposals => "MAX_PROPOSALS"
  | notProposer => "NOT_PROPOSER"
  | notExecutor => "NOT_EXECUTOR"
  | opNotReady => "OP_NOT_READY"
  | opAlreadyQueued => "OP_ALREADY_QUEUED"
  | proposalNotFound => "PROPOSAL_NOT_FOUND"
  | invalidVote => "INVALID_VOTE"
  | quorumNotMet => "QUORUM_NOT_MET"
  | notAdmin => "NOT_ADMIN"
  | overflow => "OVERFLOW"
  | reentrant => "REENTRANT"
  | opExpired => "OP_EXPIRED"
  | callerVerification => "CALLER_VERIFICATION"
  | recordFull => "RECORD_FULL"
  | notMember => "NOT_MEMBER"

def ofName? (name : String) : Option ErrorCode :=
  all.find? fun code => code.name == name

/-- What a dispatched action reports to its host, always negative. -/
def exitCode : ErrorCode → Int
  | wrongAccount => -1
  | tooEarly => -2
  | notApproved => -3
  | dataRead => -4
  | hostCall => -5
  | badConfig => -6
  | alreadyVoted => -7
  | proposalNotActive => -8
  | belowThreshold => -9
  | maxProposals => -10
  | notProposer => -11
  | notExecutor => -12
  | opNotReady => -13
  | opAlreadyQueued => -14
  | proposalNotFound => -15
  | invalidVote => -16
  | quorumNotMet => -17
  | notAdmin => -18
  | overflow => -19
  | reentrant => -20
  | opExpired => -21
  | callerVerification => -22
  | recordFull => -23
  | notMember => -24

theorem exitCode_neg (code : ErrorCode) : code.exitCode < 0 := by
  cases code <;> decide

end ErrorCode

/-- What a dispatched action reports to its host when it succeeds. -/
def successExitCode : Int := 1

/-! ## Ill-typed arguments -/

inductive ArgumentFault where
  | recordKey (key : Text)
  | recordValue (key value : Text)
  | keyIndex (index : Number)
  | notU8 (value : Number)
  | notU32 (value : Number)
  | notU64 (value : Int)
  | accountSize
  | proposerSize
deriving DecidableEq, Repr

namespace ArgumentFault

def message : ArgumentFault → String
  | recordKey key => s!"Invalid record key: \"{String.ofList key}\""
  | recordValue key value =>
      s!"Invalid value for record key \"{String.ofList key}\": \"{String.ofList value}\""
  | keyIndex index => s!"Key index out of range 0-{maxU8}: {index}"
  | notU8 value => s!"Not a u8: {value}"
  | notU32 value => s!"Not a u32: {value}"
  | notU64 value => s!"Not a u64: {value}"
  | accountSize => s!"Account id must be {Account.size} bytes"
  | proposerSize => s!"Proposer must be {Account.size} bytes"

end ArgumentFault

/-! ## Refusals -/

/-- The parameters of a deployment, by name. -/
inductive ParameterName where
  | maxMembers
  | maxProposals
  | votingDelay
  | votingPeriod
  | timelockMinDelay
  | timelockGracePeriod
  | proposalThreshold
  | selfRegisterPower
deriving DecidableEq, Repr

namespace ParameterName

def text : ParameterName → String
  | maxMembers => "maxMembers"
  | maxProposals => "maxProposals"
  | votingDelay => "votingDelay"
  | votingPeriod => "votingPeriod"
  | timelockMinDelay => "timelockMinDelay"
  | timelockGracePeriod => "timelockGracePeriod"
  | proposalThreshold => "proposalThreshold"
  | selfRegisterPower => "selfRegisterPower"

end ParameterName

inductive Failure where
  -- the record
  | recordFull (size : Nat) (capacity : Number)
  -- parameters
  | capacityParameter (value : Number)
  | slotsParameter (name : ParameterName) (value : Number)
  | u32Parameter (name : ParameterName) (value : Number)
  | u64Parameter (name : ParameterName) (value : Int)
  | quorumParameter (value : Int)
  -- members
  | powerOutOfRange (power : Int)
  | invalidRoleMask (mask : Number)
  | memberEntryGone (index : Nat)
  | memberLimit (limit : Nat)
  | lacksRole (account : Account) (role : Role)
  -- proposals
  | belowThreshold (votes : Int) (threshold : Nat)
  | proposalLimit (limit : Nat)
  | votingWindow (now : Number)
  | noProposalWithId (id : Nat)
  | noProposalAt (index : Nat)
  | proposalIncomplete (id : Nat)
  | notProposer
  | notPending (state : ProposalState)
  | notSucceeded (id : Nat)
  -- votes
  | unknownSupport (support : Number)
  | notActive (state : ProposalState)
  | alreadyVoted (voter : Account)
  | tallyOverflow (weight : Int) (support : VoteSupport)
  | noVoteSlot (index : Nat)
  | malformedIntent
  | intentRecorded (voter : Account)
  -- timelock operations
  | delayTooShort (delay : Number) (minimum : Nat)
  | alreadyQueued (proposalId : Number)
  | noOperationSlot
  | readyTime (now delay : Number)
  | noOperationFor (proposalId : Nat)
  | noOperationWithId (id : Nat)
  | noOperationAt (index : Nat)
  | operationIncomplete (id : Nat)
  | operationExpired (index : Nat)
  | operationNotReady (index : Nat) (state : OperationState)
  | operationNotCancelable (index : Nat) (state : OperationState)
  | predecessorNotDone (id : Nat)
  | executionInProgress
  -- the host
  | callerUnknown
  | callerChanged
  | recordUnreadable
  | recordUnreadableAfterExecution
  | invalidTime (time : Number)
  | lockedRecordRefused
  | releasedRecordRefused
  | recordRefused
  | seededRecordRefused
  -- the service
  | notAMember
  | noProposalReceipt
deriving DecidableEq, Repr

namespace Failure

def code : Failure → ErrorCode
  | recordFull .. | noVoteSlot _ | noOperationSlot => .recordFull
  | capacityParameter _ | slotsParameter .. | u32Parameter .. | u64Parameter ..
  | quorumParameter _ | invalidRoleMask _ | memberLimit _ => .badConfig
  | powerOutOfRange _ | votingWindow _ | tallyOverflow .. | readyTime .. => .overflow
  | memberEntryGone _ | recordUnreadable | recordUnreadableAfterExecution => .dataRead
  | lacksRole _ .admin => .notAdmin
  | lacksRole _ .executor => .notExecutor
  | lacksRole _ .proposer | notProposer => .notProposer
  | belowThreshold .. => .belowThreshold
  | proposalLimit _ => .maxProposals
  | noProposalWithId _ | noProposalAt _ | proposalIncomplete _ | noOperationFor _
  | noOperationWithId _ | operationIncomplete _ | noProposalReceipt => .proposalNotFound
  | notPending _ | notSucceeded _ | notActive _ => .proposalNotActive
  | unknownSupport _ | malformedIntent => .invalidVote
  | alreadyVoted _ | intentRecorded _ => .alreadyVoted
  | delayTooShort .. => .tooEarly
  | alreadyQueued _ => .opAlreadyQueued
  | noOperationAt _ | operationNotReady .. | operationNotCancelable ..
  | predecessorNotDone _ => .opNotReady
  | operationExpired _ => .opExpired
  | executionInProgress => .reentrant
  | callerChanged => .callerVerification
  | callerUnknown | invalidTime _ | lockedRecordRefused | releasedRecordRefused
  | recordRefused | seededRecordRefused => .hostCall
  | notAMember => .notMember

def message : Failure → String
  | recordFull size capacity => s!"Record needs {size} bytes, capacity is {capacity}"
  | capacityParameter value => s!"recordCapacity must be a positive integer, got {value}"
  | slotsParameter name value =>
      s!"{name.text} must be between 1 and {maxU8}, got {value}"
  | u32Parameter name value => s!"{name.text} must be a u32, got {value}"
  | u64Parameter name value => s!"{name.text} must be a u64, got {value}"
  | quorumParameter value => s!"quorumPercentage must be between 0 and 100, got {value}"
  | powerOutOfRange power => s!"Voting power out of range: {power}"
  | invalidRoleMask mask => s!"Invalid role mask: {mask}"
  | memberEntryGone index => s!"Member entry {index} disappeared"
  | memberLimit limit => s!"Member limit reached ({limit})"
  | lacksRole account role => s!"Account {account.text} lacks role {role.bit}"
  | belowThreshold votes threshold =>
      s!"Proposer has {votes} votes, threshold is {threshold}"
  | proposalLimit limit => s!"Proposal limit reached ({limit})"
  | votingWindow now => s!"Voting window starting at {now} exceeds u32 time"
  | noProposalWithId id => s!"No proposal with id {id}"
  | noProposalAt index => s!"No proposal at index {index}"
  | proposalIncomplete id => s!"Proposal {id} is incomplete"
  | notProposer => "Only the proposer can cancel"
  | notPending state => s!"Proposal is in state {state.code}, not Pending"
  | notSucceeded id => s!"Proposal {id} has not succeeded"
  | unknownSupport support => s!"Support must be 0, 1 or 2, got {support}"
  | notActive state => s!"Proposal is in state {state.code}, not Active"
  | alreadyVoted voter => s!"Account {voter.text} already voted"
  | tallyOverflow weight support =>
      s!"Adding {weight} to the {support.name} tally overflows"
  | noVoteSlot index => s!"No vote slots left on proposal index {index}"
  | malformedIntent => "Malformed vote intent"
  | intentRecorded voter => s!"Vote intent already recorded for {voter.text}"
  | delayTooShort delay minimum => s!"Delay {delay} is below the minimum of {minimum}"
  | alreadyQueued proposalId => s!"Proposal {proposalId} already has an operation"
  | noOperationSlot => "No operation slots left"
  | readyTime now delay => s!"Ready time {now} + {delay} exceeds u32 time"
  | noOperationFor proposalId => s!"No operation scheduled for proposal {proposalId}"
  | noOperationWithId id => s!"No operation with id {id}"
  | noOperationAt index => s!"No operation at index {index}"
  | operationIncomplete id => s!"Operation {id} is incomplete"
  | operationExpired index => s!"Operation {index} expired"
  | operationNotReady index state =>
      s!"Operation {index} is in state {state.code}, not Ready"
  | operationNotCancelable index state =>
      s!"Operation {index} cannot be canceled in state {state.code}"
  | predecessorNotDone id => s!"Predecessor {id} is not done"
  | executionInProgress => "Execution already in progress"
  | callerUnknown => "Host did not identify the caller"
  | callerChanged => "Caller identity changed between reads"
  | recordUnreadable => "Host could not read the record"
  | recordUnreadableAfterExecution => "Host could not read the record after execution"
  | invalidTime time => s!"Host returned an invalid time: {time}"
  | lockedRecordRefused => "Host refused the locked record"
  | releasedRecordRefused => "Host refused the released record"
  | recordRefused => "Host refused the record write"
  | seededRecordRefused => "Host refused the seeded record"
  | notAMember => "Account is not a member"
  | noProposalReceipt => "Dispatch returned no proposal id"

end Failure

/-! ## Outcomes -/

inductive Fault where
  | refused (failure : Failure)
  | illTyped (argument : ArgumentFault)
deriving DecidableEq, Repr

abbrev Outcome := Except Fault

namespace Outcome

def refuse {α : Type} (failure : Failure) : Outcome α :=
  .error (.refused failure)

def illTyped {α : Type} (argument : ArgumentFault) : Outcome α :=
  .error (.illTyped argument)

end Outcome

/-! ## Judging arguments -/

/-- The account in hexadecimal, as records and messages hold it. -/
def Account.hex (account : Account) : Outcome Text :=
  if account.length = Account.size then .ok (Text.hex account)
  else Outcome.illTyped .accountSize

namespace Number

def u8 (number : Number) : Outcome Nat :=
  match number.upTo? maxU8 with
  | some value => .ok value
  | none => Outcome.illTyped (.notU8 number)

def u32 (number : Number) : Outcome Nat :=
  match number.upTo? maxU32 with
  | some value => .ok value
  | none => Outcome.illTyped (.notU32 number)

/-- An index that a composite key can carry. -/
def keyIndex (number : Number) : Outcome Nat :=
  match number.upTo? maxU8 with
  | some value => .ok value
  | none => Outcome.illTyped (.keyIndex number)

end Number

/-! ## 64-bit amounts -/

namespace Amount

def u64? (amount : Int) : Option Nat :=
  match amount with
  | .ofNat value => if value ≤ maxU64 then some value else none
  | .negSucc _ => none

def u64 (amount : Int) : Outcome Nat :=
  match u64? amount with
  | some value => .ok value
  | none => Outcome.illTyped (.notU64 amount)

/-- The sum, unless it exceeds 64 bits. -/
def checkedAdd (left right : Int) : Option Int :=
  if left + right ≤ maxU64 then some (left + right) else none

/-- The sum, cut off at the greatest 64-bit value. -/
def saturatingAdd (left right : Int) : Int :=
  if left + right ≤ maxU64 then left + right else maxU64

/-- The product, cut off at the greatest 64-bit value. -/
def saturatingMul (left right : Int) : Int :=
  if left * right ≤ maxU64 then left * right else maxU64

end Amount

/-! ## 32-bit times -/

namespace Number

/-- The sum, unless it exceeds 32 bits. -/
def checkedAdd (left right : Number) : Option Number :=
  if left + right ≤ (maxU32 : Number) then some (left + right) else none

/-- The sum, cut off at the greatest 32-bit value. -/
def saturatingAdd (left right : Number) : Number :=
  (left + right).min (maxU32 : Number)

end Number

end LedgerGovernance
