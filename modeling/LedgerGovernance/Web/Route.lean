import LedgerGovernance.Text

/-! What requests can ask for. A route is found by method and path; the parameters
in the path are judged later. -/

namespace LedgerGovernance

inductive Route where
  | health
  | record
  | members
  | register
  | setPower (account : Text)
  | grantRole (account : Text)
  | revokeRole (account role : Text)
  | delegate
  | propose
  | proposals
  | proposal (id : Text)
  | vote (id : Text)
  | submitIntent (id : Text)
  | snapshot (id : Text)
  | queue (id : Text)
  | execute (id : Text)
  | cancel (id : Text)
  | operation (id : Text)
deriving DecidableEq, Repr

namespace Route

def ofMembers? : (method : String) → List String → Option Route
  | "GET", [] => some members
  | "POST", [] => some register
  | "PUT", [account, "power"] => some (setPower account.toList)
  | "POST", [account, "roles"] => some (grantRole account.toList)
  | "DELETE", [account, "roles", role] => some (revokeRole account.toList role.toList)
  | _, _ => none

def ofProposals? : (method : String) → List String → Option Route
  | "POST", [] => some propose
  | "GET", [] => some proposals
  | "GET", [id] => some (proposal id.toList)
  | "POST", [id, "votes"] => some (vote id.toList)
  | "POST", [id, "vote-intents"] => some (submitIntent id.toList)
  | "POST", [id, "snapshots"] => some (snapshot id.toList)
  | "POST", [id, "queue"] => some (queue id.toList)
  | "POST", [id, "execute"] => some (execute id.toList)
  | "POST", [id, "cancel"] => some (cancel id.toList)
  | _, _ => none

/-- The route to the segments of a path. No segment may be empty, so neither a
doubled slash nor one at the end leads anywhere. -/
def of? (method : String) (segments : List String) : Option Route :=
  if segments.any String.isEmpty then none
  else
    match method, segments with
    | "GET", ["health"] => some health
    | "GET", ["api", "v1", "record"] => some record
    | method, "api" :: "v1" :: "members" :: rest => ofMembers? method rest
    | "POST", ["api", "v1", "delegations"] => some delegate
    | method, "api" :: "v1" :: "proposals" :: rest => ofProposals? method rest
    | "GET", ["api", "v1", "operations", id] => some (operation id.toList)
    | _, _ => none

end Route

end LedgerGovernance
