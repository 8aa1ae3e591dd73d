import LedgerGovernance.Params
import LedgerGovernance.Record.Key

/-! The membership ledger. A member has a base voting power and a mask of roles;
its entry stays at its index and is never deleted. A new member takes the next
index, and the counter moves to the end of the record. -/

namespace LedgerGovernance

structure Member where
  index : Nat
  account : Account
  votingPower : Nat
  roles : Nat
deriving DecidableEq, Repr

namespace Members

/-! ## Entries -/

/-- The value of a member's entry: account, power and role mask between
colons. -/
def entryText (account : Text) (votingPower roles : Nat) : Text :=
  account ++ ':' :: (Text.decimal votingPower ++ ':' :: Text.decimal roles)

def parse? (index : Nat) (entry : Text) : Option Member :=
  match entry.splitOn ':' with
  | [account, votingPower, roles] => do
      let account ← Account.ofHex? account
      let votingPower ← Text.readU64? votingPower
      let roles ← Text.readCount? roles
      return { index, account, votingPower, roles }
  | _ => none

/-! ## Reading -/

def count (record : Text) : Nat :=
  Record.readCount record Key.memberCount.text

def at? (record : Text) (index : Nat) : Option Member :=
  (Record.read? record (.member index)).bind (parse? index)

/-- The members in the order of their indices. Entries that do not parse are
left out. -/
def list (record : Text) : List Member :=
  (List.range (count record)).filterMap (at? record)

def find? (record : Text) (account : Account) : Option Member :=
  (list record).find? fun member => member.account == account

/-- The base power of an account, zero for one that is no member. -/
def votes (record : Text) (account : Account) : Nat :=
  ((find? record account).map Member.votingPower).getD 0

def roles (record : Text) (account : Account) : Nat :=
  ((find? record account).map Member.roles).getD 0

/-- Whether the account has one of the roles in a mask. -/
def hasRole (record : Text) (account : Account) (mask : Number) : Bool :=
  BitVec.ofNat 32 (roles record account) &&& mask.toWord != 0

/-- An account without the role is refused. A byte string that is no account has
no roles, and no refusal can name it. -/
def requireRole (record : Text) (account : Account) (role : Role) : Outcome Unit :=
  if hasRole record account role.bit then .ok ()
  else do
    let _ ← account.hex
    Outcome.refuse (.lacksRole account role)

/-- A sum of powers is cut off at the greatest 64-bit value. -/
def addPower (total power : Nat) : Nat :=
  min (total + power) maxU64

def totalPower (record : Text) : Nat :=
  (list record).foldl (fun total member => addPower total member.votingPower) 0

/-- The votes that a quorum needs: the percentage of each full hundred of the
total power. -/
def quorum (params : Params) (total : Int) : Int :=
  Amount.saturatingMul (total.tdiv 100) params.quorumPercentage

/-! ## Writing -/

/-- Adds a member or replaces the entry of one that is there. The power and the
role mask are judged first, then the account, and last the limit on members. -/
def set (params : Params) (record : Text) (account : Account) (power : Int)
    (mask : Number) : Outcome Text :=
  match Amount.u64? power with
  | none => Outcome.refuse (.powerOutOfRange power)
  | some power =>
      match roleMask? mask with
      | none => Outcome.refuse (.invalidRoleMask mask)
      | some mask => do
          let hex ← account.hex
          let entry := entryText hex power mask
          let draft := Draft.ofRecord record
          match find? record account with
          | some member =>
              match ← draft.replace? (Key.member member.index).text entry with
              | some draft => draft.encode params.recordCapacity
              | none => Outcome.refuse (.memberEntryGone member.index)
          | none =>
              let next := count record
              if params.maxMembers ≤ next then
                Outcome.refuse (.memberLimit params.maxMembers)
              else
                let draft ← (draft.remove Key.memberCount.text).appendAll [
                  (Key.memberCount.text, Text.decimal (next + 1)),
                  ((Key.member next).text, entry)]
                draft.encode params.recordCapacity

/-- The roles of a mask are added to those of the account, as signed 32-bit
words. -/
def withRoles (roles : Nat) (mask : Number) : Number :=
  ((BitVec.ofNat 32 roles ||| mask.toWord).toInt : Number)

/-- The roles of a mask are taken from those of the account. -/
def withoutRoles (roles : Nat) (mask : Number) : Number :=
  ((BitVec.ofNat 32 roles &&& ~~~mask.toWord &&& 255).toInt : Number)

def grantRole (params : Params) (record : Text) (account : Account) (mask : Number) :
    Outcome Text :=
  set params record account (votes record account)
    (withRoles (roles record account) mask)

def revokeRole (params : Params) (record : Text) (account : Account) (mask : Number) :
    Outcome Text :=
  set params record account (votes record account)
    (withoutRoles (roles record account) mask)

end Members

end LedgerGovernance
