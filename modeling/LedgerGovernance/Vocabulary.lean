import LedgerGovernance.Number.Basic
import LedgerGovernance.Text.Decimal

/-! The closed sets of values that a ledger record stores as small numbers, and
the names under which they leave the library. -/

namespace LedgerGovernance

/-! ## Proposals -/

inductive ProposalState where
  | pending
  | active
  | canceled
  | defeated
  | succeeded
  | queued
  | expired
  | executed
deriving DecidableEq, Repr

namespace ProposalState

def all : List ProposalState :=
  [pending, active, canceled, defeated, succeeded, queued, expired, executed]

def code : ProposalState → Nat
  | pending => 0
  | active => 1
  | canceled => 2
  | defeated => 3
  | succeeded => 4
  | queued => 5
  | expired => 6
  | executed => 7

def ofCode? (code : Nat) : Option ProposalState :=
  all.find? fun state => state.code == code

@[simp] theorem ofCode?_code (state : ProposalState) : ofCode? state.code = some state := by
  cases state <;> decide

def ofNumber? (number : Number) : Option ProposalState :=
  (number.upTo? maxU8).bind ofCode?

def name : ProposalState → String
  | pending => "Pending"
  | active => "Active"
  | canceled => "Canceled"
  | defeated => "Defeated"
  | succeeded => "Succeeded"
  | queued => "Queued"
  | expired => "Expired"
  | executed => "Executed"

/-- A stored explicit state is the state of a proposal; every other state is
derived from time and tallies. -/
def isExplicit : ProposalState → Bool
  | canceled | queued | executed | expired => true
  | pending | active | defeated | succeeded => false

end ProposalState

/-! ## Timelock operations -/

inductive OperationState where
  | unset
  | pending
  | ready
  | done
  | expired
deriving DecidableEq, Repr

namespace OperationState

def all : List OperationState :=
  [unset, pending, ready, done, expired]

def code : OperationState → Nat
  | unset => 0
  | pending => 1
  | ready => 2
  | done => 3
  | expired => 4

def ofCode? (code : Nat) : Option OperationState :=
  all.find? fun state => state.code == code

@[simp] theorem ofCode?_code (state : OperationState) : ofCode? state.code = some state := by
  cases state <;> decide

def ofNumber? (number : Number) : Option OperationState :=
  (number.upTo? maxU8).bind ofCode?

def name : OperationState → String
  | unset => "Unset"
  | pending => "Pending"
  | ready => "Ready"
  | done => "Done"
  | expired => "Expired"

/-- A live operation can still be executed or canceled. -/
def isLive : OperationState → Bool
  | pending | ready => true
  | unset | done | expired => false

end OperationState

/-! ## Votes -/

inductive VoteSupport where
  | against
  | inFavor
  | abstain
deriving DecidableEq, Repr

namespace VoteSupport

def all : List VoteSupport :=
  [against, inFavor, abstain]

def code : VoteSupport → Nat
  | against => 0
  | inFavor => 1
  | abstain => 2

def ofCode? (code : Nat) : Option VoteSupport :=
  all.find? fun support => support.code == code

@[simp] theorem ofCode?_code (support : VoteSupport) :
    ofCode? support.code = some support := by
  cases support <;> decide

def ofNumber? (number : Number) : Option VoteSupport :=
  (number.upTo? maxU8).bind ofCode?

def name : VoteSupport → String
  | against => "against"
  | inFavor => "for"
  | abstain => "abstain"

def ofName? (name : String) : Option VoteSupport :=
  all.find? fun support => support.name == name

end VoteSupport

/-! ## Roles -/

/-- A role is one bit of a member's role mask. -/
inductive Role where
  | proposer
  | executor
  | admin
deriving DecidableEq, Repr

namespace Role

def all : List Role :=
  [proposer, executor, admin]

def bit : Role → Nat
  | proposer => 1
  | executor => 2
  | admin => 4

def name : Role → String
  | proposer => "proposer"
  | executor => "executor"
  | admin => "admin"

def ofName? (name : String) : Option Role :=
  all.find? fun role => role.name == name

def ofNumber? (number : Number) : Option Role :=
  (number.upTo? maxU8).bind fun code => all.find? fun role => role.bit == code

/-- The names of the roles in a mask, of which only the low 32 bits count. -/
def names (mask : Number) : List String :=
  (all.filter fun role => mask.toWord &&& BitVec.ofNat 32 role.bit != 0).map name

example : names 5 = ["proposer", "admin"] := by decide

end Role

/-- A role mask is stored in one byte. -/
def roleMask? (number : Number) : Option Nat :=
  number.upTo? maxU8

end LedgerGovernance
