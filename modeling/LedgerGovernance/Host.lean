import LedgerGovernance.Fault

/-! A host owns the record, says who is calling and tells the time. It may fail at
any of these, and it answers for itself: nothing is assumed about how the answers
of two calls go together. -/

namespace LedgerGovernance

structure Host (σ : Type) where
  /-- The current record, unless it cannot be read. -/
  readRecord : StateM σ (Option Text)
  /-- Whether the host took the record in place of the current one. -/
  writeRecord : Text → StateM σ Bool
  /-- The account behind the current call, if the host knows it. -/
  callerIdentity : StateM σ (Option Account)
  /-- Seconds of ledger time. -/
  currentTime : StateM σ Number

/-! ## Calls on a host -/

/-- Why a call on a host ends without a result. -/
inductive Interruption where
  | fault (fault : Fault)
  /-- The hook of an execution failed, with a reason of its own. -/
  | hookFailed (reason : String)
deriving DecidableEq, Repr

/-- A call keeps what it has done to the host even when it is interrupted. -/
abbrev Call (σ : Type) := ExceptT Interruption (StateM σ)

namespace Call

variable {σ α : Type}

def refuse (failure : Failure) : Call σ α :=
  throw (.fault (.refused failure))

def ofOutcome (outcome : Outcome α) : Call σ α :=
  match outcome with
  | .ok value => pure value
  | .error fault => throw (.fault fault)

end Call

namespace Host

variable {σ ρ : Type}

/-- The same host, for which every call comes from one account. -/
def forCaller (host : Host σ) (caller : Account) : Host σ :=
  { host with callerIdentity := return some caller }

private def inPart {α : Type} (get : ρ → σ) (put : ρ → σ → ρ) (call : StateM σ α) :
    StateM ρ α := fun whole =>
  let (answer, part) := call (get whole)
  (answer, put whole part)

/-- A host as a part of a larger state. -/
def within (get : ρ → σ) (put : ρ → σ → ρ) (host : Host σ) : Host ρ where
  readRecord := inPart get put host.readRecord
  writeRecord record := inPart get put (host.writeRecord record)
  callerIdentity := inPart get put host.callerIdentity
  currentTime := inPart get put host.currentTime

end Host

end LedgerGovernance
