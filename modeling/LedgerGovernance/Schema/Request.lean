import LedgerGovernance.Account
import LedgerGovernance.Schema
import LedgerGovernance.Vocabulary

/-! What requests carry, in their paths and in their bodies. -/

namespace LedgerGovernance

namespace Schema

/-! ## Values -/

/-- An account in hexadecimal digits of either case. -/
def account : Schema Account :=
  text fun value =>
    match Account.ofHex? value.toList with
    | some account => .accepted account
    | none => .flawed [.notAccount]

/-- A 32-bit id in decimal, as a segment of a path holds it. -/
def id : Schema Nat :=
  text fun value =>
    match Text.readU32? value.toList with
    | some id => .accepted id
    | none => .flawed [.notId]

/-- Up to twenty decimal digits. -/
def digits : Schema Nat :=
  text fun value =>
    if Text.isDecimal 20 value.toList then .accepted (Text.digitsValue value.toList)
    else .flawed [.notDigits]

/-- The greatest whole number up to which binary64 tells neighbours apart. -/
def greatestExact : Nat := 9007199254740991

/-- A 64-bit power, as digits or as a number that is exact. -/
def votingPower : Schema Nat := fun value =>
  (either digits (number (whole 0 (some greatestExact))) value).require
    (· ≤ maxU64) .beyondU64

def role : Schema Role :=
  oneOf Role.all Role.name

/-- A support by name or by number. A number that stands for no support passes;
the vote that is cast with it is refused. -/
def support : Schema Nat :=
  either ((oneOf VoteSupport.all VoteSupport.name).map VoteSupport.code)
    (number (whole 0 (some maxU8)))

/-! ## Bodies -/

def votingPowerBody : Option Json → Except (List Issue) Nat :=
  votingPower.inField "votingPower"

def roleBody : Option Json → Except (List Issue) Role :=
  role.inField "role"

def delegateeBody : Option Json → Except (List Issue) Account :=
  account.inField "delegatee"

def descriptionBody : Option Json → Except (List Issue) (Option Nat) :=
  (optional (number (whole 0 (some maxU32)))).inField "descriptionHash"

def supportBody : Option Json → Except (List Issue) Nat :=
  support.inField "support"

def accountBody : Option Json → Except (List Issue) (Option Account) :=
  (optional account).inField "account"

end Schema

end LedgerGovernance
