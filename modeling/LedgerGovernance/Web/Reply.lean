import LedgerGovernance.Host
import LedgerGovernance.Schema

/-! Replies to requests, and how failures are told. A failure is an envelope with a
code and a message. What went wrong inside a host is not told: failures of status
500 all have the same message. -/

namespace LedgerGovernance

structure Reply where
  status : Nat
  body : Json
deriving Repr

namespace Reply

/-- A reply with data. -/
def data (body : Json) (status : Nat) : Reply where
  status
  body := .object [("data", body)]

/-! ## Envelopes -/

def envelope (code : String) (message : Units) (details : Option Json) : Json :=
  .object [("error", .object
    ([("code", .string code), ("message", .units message)]
      ++ details.toList.map fun details => ("details", details)))]

def hiddenMessage : String := "Internal server error"

def internal : Reply where
  status := 500
  body := envelope "INTERNAL_ERROR" hiddenMessage none

/-- The status that tells a refusal of the governance rules. -/
def statusOf : ErrorCode → Nat
  | .proposalNotFound | .notMember => 404
  | .wrongAccount | .notApproved | .notProposer | .notExecutor | .notAdmin
  | .belowThreshold | .callerVerification => 403
  | .tooEarly | .alreadyVoted | .proposalNotActive | .opNotReady | .opAlreadyQueued
  | .opExpired | .quorumNotMet | .reentrant => 409
  | .invalidVote => 400
  | .badConfig | .maxProposals | .overflow | .recordFull => 422
  | .dataRead | .hostCall => 500

/-- The reply to a refusal, which carries its exit code. -/
def refusal (code : ErrorCode) (message : String) : Reply :=
  let status := statusOf code
  { status
    body := envelope code.name (if status = 500 then hiddenMessage else message)
      (some (.object [("exitCode", .number code.exitCode)])) }

/-- The reply to a failure of the layer that takes requests in; only what was
wrong with the request itself is told. -/
def transportFailure (status : Nat) (message : String) : Reply :=
  if status = 400 then { status, body := envelope "VALIDATION_ERROR" message none }
  else internal

end Reply

/-! ## Failures of requests -/

inductive RequestFailure where
  | malformedCaller
  | callerMissing
  | noRoute (method path : String)
  | malformedBody
  | invalidBody (issues : List Issue)
  | invalidParameter (name : String) (problem : Problem)
  | interrupted (interruption : Interruption)
deriving DecidableEq, Repr

namespace RequestFailure

private def issueJson (issue : Issue) : Json :=
  .object [("path", .string issue.path), ("message", .units issue.problem.message)]

def reply : RequestFailure → Reply
  | malformedCaller => {
      status := 400
      body := Reply.envelope "VALIDATION_ERROR" "X-Account-Id must be 40 hex characters"
        none }
  | callerMissing => {
      status := 401
      body := Reply.envelope "UNAUTHORIZED" "X-Account-Id header is required" none }
  | noRoute method path => {
      status := 404
      body := Reply.envelope "NOT_FOUND" s!"No route for {method} {path}" none }
  | malformedBody => Reply.transportFailure 400 "Malformed JSON in request body"
  | invalidBody issues => {
      status := 400
      body := Reply.envelope "VALIDATION_ERROR" "Request body validation failed"
        (some (.object [("issues", .array (issues.map issueJson))])) }
  | invalidParameter name problem => {
      status := 400
      body := Reply.envelope "VALIDATION_ERROR" (s!"Invalid {name}: " ++ problem.message) none }
  | interrupted (.fault (.refused failure)) => Reply.refusal failure.code failure.message
  | interrupted (.fault (.illTyped _)) | interrupted (.hookFailed _) => Reply.internal

end RequestFailure

end LedgerGovernance
