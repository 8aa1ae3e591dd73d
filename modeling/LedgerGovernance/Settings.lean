import LedgerGovernance.Number.Literal
import LedgerGovernance.Params
import LedgerGovernance.Schema.Request

/-! The settings of a deployment, read from the variables of its environment.
Every variable may be absent, and all that is wrong with the others is reported
together, in the order in which the variables are listed here. -/

namespace LedgerGovernance

/-- The least level of the lines that are logged. -/
inductive Verbosity where
  | fatal
  | error
  | warn
  | info
  | debug
  | trace
  | silent
deriving DecidableEq, Repr

namespace Verbosity

def all : List Verbosity :=
  [fatal, error, warn, info, debug, trace, silent]

def name : Verbosity → String
  | fatal => "fatal"
  | error => "error"
  | warn => "warn"
  | info => "info"
  | debug => "debug"
  | trace => "trace"
  | silent => "silent"

end Verbosity

/-- What a deployment is for. -/
inductive Purpose where
  | development
  | production
  | test
deriving DecidableEq, Repr

namespace Purpose

def all : List Purpose :=
  [development, production, test]

def name : Purpose → String
  | development => "development"
  | production => "production"
  | test => "test"

end Purpose

structure Settings where
  webPort : Nat
  host : String
  verbosity : Verbosity
  purpose : Purpose
  /-- Seeded with every role. -/
  adminAccount : Option Account
  recordCapacity : Nat
  maxMembers : Nat
  maxProposals : Nat
  votingDelay : Nat
  votingPeriod : Nat
  proposalThreshold : Nat
  quorumPercentage : Nat
  timelockMinDelay : Nat
  timelockGracePeriod : Nat
  selfRegisterPower : Nat
deriving DecidableEq, Repr

namespace Settings

/-- The variables of an environment with their texts. -/
abbrev Environment := List (String × String)

abbrev Checked := Except (List Issue)

def Checked.of {α : Type} (value : α) : Checked α := .ok value

/-- Applies a function whose making and whose argument may both have issues. -/
def Checked.and {α β : Type} : Checked (α → β) → Checked α → Checked β
  | .ok convert, .ok value => .ok (convert value)
  | .ok _, .error issues => .error issues
  | .error issues, .ok _ => .error issues
  | .error earlier, .error later => .error (earlier ++ later)

/-! ## Variables -/

/-- The text of a variable; of one that is set twice, the last. -/
def lookup? (environment : Environment) (name : String) : Option String :=
  (environment.reverse.find? (·.1 == name)).map (·.2)

def withDefault {α : Type} (environment : Environment) (name : String) (fallback : α)
    (judge : String → Judged α) : Checked α :=
  match lookup? environment name with
  | some text => (judge text).within name
  | none => .ok fallback

/-- Any text that denotes a whole number within bounds. -/
def number (environment : Environment) (name : String) (fallback least : Nat)
    (greatest : Option Nat) : Checked Nat :=
  withDefault environment name fallback fun text =>
    Schema.number (Schema.whole least greatest)
      (some (.number (Number.ofText text.toList)))

/-- A 64-bit amount in decimal digits. -/
def amount (environment : Environment) (name : String) (fallback : Nat) : Checked Nat :=
  withDefault environment name fallback fun text =>
    (Schema.digits (some (.string text))).require (· ≤ maxU64) .beyondU64

def named {α : Type} (environment : Environment) (name : String) (fallback : α)
    (values : List α) (nameOf : α → String) : Checked α :=
  withDefault environment name fallback fun text =>
    Schema.oneOf values nameOf (some (.string text))

def account (environment : Environment) (name : String) : Checked (Option Account) :=
  withDefault environment name none fun text =>
    match Account.ofHex? text.toList with
    | some account => .accepted (some account)
    | none => .flawed [.notHexDigits]

/-! ## All settings -/

def ofEnvironment (environment : Environment) : Checked Settings :=
  let defaults := Params.default
  let number := number environment
  let amount := amount environment
  Checked.of Settings.mk
    |>.and (number "PORT" 3000 1 (some 65535))
    |>.and (withDefault environment "HOST" "0.0.0.0" .accepted)
    |>.and (named environment "LOG_LEVEL" .info Verbosity.all Verbosity.name)
    |>.and (named environment "NODE_ENV" .development Purpose.all Purpose.name)
    |>.and (account environment "ADMIN_ACCOUNT")
    |>.and (number "RECORD_CAPACITY" defaults.recordCapacity 1 none)
    |>.and (number "MAX_MEMBERS" defaults.maxMembers 1 (some maxU8))
    |>.and (number "MAX_PROPOSALS" defaults.maxProposals 1 (some maxU8))
    |>.and (number "VOTING_DELAY" defaults.votingDelay 0 (some maxU32))
    |>.and (number "VOTING_PERIOD" defaults.votingPeriod 0 (some maxU32))
    |>.and (amount "PROPOSAL_THRESHOLD" defaults.proposalThreshold)
    |>.and (number "QUORUM_PERCENTAGE" defaults.quorumPercentage 0 (some 100))
    |>.and (number "TIMELOCK_MIN_DELAY" defaults.timelockMinDelay 0 (some maxU32))
    |>.and (number "TIMELOCK_GRACE_PERIOD" defaults.timelockGracePeriod 0 (some maxU32))
    |>.and (amount "SELF_REGISTER_POWER" defaults.selfRegisterPower)

/-- The settings under the names of their variables. -/
def json (settings : Settings) : Json :=
  let admin : List (String × Json) :=
    settings.adminAccount.toList.map fun account => ("ADMIN_ACCOUNT", account.text)
  let others : List (String × Json) := [
    ("PORT", settings.webPort),
    ("HOST", settings.host),
    ("LOG_LEVEL", settings.verbosity.name),
    ("NODE_ENV", settings.purpose.name),
    ("RECORD_CAPACITY", settings.recordCapacity),
    ("MAX_MEMBERS", settings.maxMembers),
    ("MAX_PROPOSALS", settings.maxProposals),
    ("VOTING_DELAY", settings.votingDelay),
    ("VOTING_PERIOD", settings.votingPeriod),
    ("PROPOSAL_THRESHOLD", Json.amount settings.proposalThreshold),
    ("QUORUM_PERCENTAGE", settings.quorumPercentage),
    ("TIMELOCK_MIN_DELAY", settings.timelockMinDelay),
    ("TIMELOCK_GRACE_PERIOD", settings.timelockGracePeriod),
    ("SELF_REGISTER_POWER", Json.amount settings.selfRegisterPower)]
  .object (admin ++ others)

/-- The parameters that the settings ask for. -/
def params (settings : Settings) : Except Failure Params :=
  Params.resolve {
    recordCapacity := some settings.recordCapacity
    maxMembers := some settings.maxMembers
    maxProposals := some settings.maxProposals
    votingDelay := some settings.votingDelay
    votingPeriod := some settings.votingPeriod
    proposalThreshold := some settings.proposalThreshold
    quorumPercentage := some settings.quorumPercentage
    timelockMinDelay := some settings.timelockMinDelay
    timelockGracePeriod := some settings.timelockGracePeriod
    selfRegisterPower := some settings.selfRegisterPower }

end Settings

end LedgerGovernance
