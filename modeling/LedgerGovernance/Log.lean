import LedgerGovernance.Action
import LedgerGovernance.Json

/-! The lines that the library logs. A line is kept as what happened; its level and
its message follow from that. -/

namespace LedgerGovernance

inductive LogLine where
  | actionSucceeded (action : Action)
  | actionRefused (action : Action) (failure : Failure)
  | adminSeeded (members : Nat)
  | requestServed (method path : String) (status : Nat) (caller : Option Account)
deriving DecidableEq, Repr

inductive LogLevel where
  | info
  | warn
  | error
deriving DecidableEq, Repr

namespace LogLevel

def name : LogLevel → String
  | info => "info"
  | warn => "warn"
  | error => "error"

/-- Answers from 400 on are warnings, and from 500 on errors. -/
def ofStatus (status : Nat) : LogLevel :=
  if status < 400 then info
  else if status < 500 then warn
  else error

end LogLevel

namespace LogLine

def level : LogLine → LogLevel
  | actionSucceeded _ | adminSeeded _ => .info
  | actionRefused .. => .warn
  | requestServed _ _ status _ => .ofStatus status

def message : LogLine → String
  | actionSucceeded action => s!"{action.name} succeeded"
  | actionRefused action failure => s!"{action.name} failed: {failure.message}"
  | adminSeeded _ => "Admin account seeded"
  | requestServed method path status _ => s!"{method} {path} {status}"

/-- The fields of a line besides its level and its message. -/
def fields : LogLine → List (String × Json)
  | actionSucceeded action => [
      ("action", action.name),
      ("code", "SUCCESS"),
      ("exitCode", .number successExitCode)]
  | actionRefused action failure => [
      ("action", action.name),
      ("code", failure.code.name),
      ("exitCode", .number failure.code.exitCode)]
  | adminSeeded members => [("members", members)]
  | requestServed method path status caller => [
      ("method", method),
      ("path", path),
      ("status", status),
      ("caller", Json.ofOption (fun account => .string account.text) caller)]

def json (line : LogLine) : Json :=
  .object (("level", line.level.name) :: ("msg", line.message) :: line.fields)

end LogLine

end LedgerGovernance
