import LedgerGovernance.Digest
import LedgerGovernance.Params
import LedgerGovernance.Record.Key

/-! Timelock operations. A scheduled operation is Pending until its ready time,
Ready for the grace period after it, and Expired from then on; executing it makes
it Done, and canceling it returns it to Unset. A proposal has at most one
operation that is Pending or Ready. An operation may name a predecessor that has
to be Done first; the predecessor's own predecessor is not looked at. -/

namespace LedgerGovernance

structure Operation where
  index : Nat
  id : Nat
  proposalId : Nat
  readyAt : Nat
  storedState : OperationState
  /-- Zero when there is none. -/
  predecessorId : Nat
deriving DecidableEq, Repr

namespace Operations

/-! ## Fields -/

def field? (record : Text) (index : Nat) (field : OperationField) : Option Text :=
  Record.read? record (.operation index field)

/-- A 32-bit field; zero when it is absent or malformed. -/
def word (record : Text) (index : Nat) (field : OperationField) : Nat :=
  ((field? record index field).bind Text.readU32?).getD 0

/-- The stored state; Unset when it is absent or malformed. -/
def storedState (record : Text) (index : Nat) : OperationState :=
  (((field? record index .state).bind Text.readCount?).bind OperationState.ofCode?).getD
    .unset

/-! ## Reading -/

def count (record : Text) : Nat :=
  Record.readCount record Key.operationCount.text

/-- The operation at an index. It needs an id that parses; its other fields may
be missing. -/
def at? (record : Text) (index : Nat) : Option Operation := do
  let id ← field? record index .id
  let id ← Text.readU32? id
  return {
    index, id
    proposalId := word record index .proposal
    readyAt := word record index .ready
    storedState := storedState record index
    predecessorId := word record index .predecessor }

def list (record : Text) : List Operation :=
  (List.range (count record)).filterMap (at? record)

/-- The last second at which an operation can be executed. -/
def deadline (params : Params) (readyAt : Nat) : Nat :=
  min (readyAt + params.timelockGracePeriod) maxU32

/-- The state at a time. Only a stored Pending is derived anew. -/
def state (params : Params) (record : Text) (index : Nat) (now : Number) :
    OperationState :=
  let stored := storedState record index
  if stored ≠ .pending then stored
  else
    let readyAt := word record index .ready
    if now < (readyAt : Number) then .pending
    else if (deadline params readyAt : Number) < now then .expired
    else .ready

/-- The index of the operation scheduled last for a proposal. -/
def indexOfProposal (record : Text) (proposalId : Nat) : Outcome Nat :=
  let found := (List.range (count record)).reverse.find? fun index =>
    field? record index .proposal == some (Text.decimal proposalId)
  match found with
  | some index => .ok index
  | none => Outcome.refuse (.noOperationFor proposalId)

/-- The first index whose stored id is written exactly as the id would be. -/
def indexOf (record : Text) (id : Nat) : Outcome Nat :=
  let found := (List.range (count record)).find? fun index =>
    field? record index .id == some (Text.decimal id)
  match found with
  | some index => .ok index
  | none => Outcome.refuse (.noOperationWithId id)

/-- The id of the predecessor, zero when there is none. -/
def predecessor (record : Text) (index : Nat) : Nat :=
  word record index .predecessor

/-! ## Scheduling -/

structure Scheduled where
  record : Text
  operationId : Nat
  index : Nat
deriving DecidableEq, Repr

/-- Whether a proposal has an operation that is Pending or Ready. -/
def hasLive (params : Params) (record : Text) (proposalId now : Number) : Bool :=
  (List.range (count record)).any fun index =>
    ((word record index .proposal : Number) == proposalId) &&
      (state params record index now).isLive

/-- Schedules an operation for a proposal. The counter moves to the end of the
record, and the fields of the new operation follow it. -/
def schedule (params : Params) (record : Text) (proposalId now delay : Number)
    (predecessorId : Option Number) : Outcome Scheduled :=
  let index := count record
  if delay < (params.timelockMinDelay : Number) then
    Outcome.refuse (.delayTooShort delay params.timelockMinDelay)
  else if hasLive params record proposalId now then
    Outcome.refuse (.alreadyQueued proposalId)
  else if maxU8 < index then
    Outcome.refuse .noOperationSlot
  else
    match now.checkedAdd delay with
    | none => Outcome.refuse (.readyTime now delay)
    | some readyAt => do
        let id ← Digest.operationId proposalId now index
        let proposalId ← proposalId.u32
        let readyAt ← readyAt.u32
        let entry := fun (field : OperationField) (value : Text) =>
          ((Key.operation index field).text, value)
        let draft ← ((Draft.ofRecord record).remove Key.operationCount.text).appendAll [
          (Key.operationCount.text, Text.decimal (index + 1)),
          entry .id (Text.decimal id),
          entry .proposal (Text.decimal proposalId),
          entry .ready (Text.decimal readyAt),
          entry .state (Text.decimal OperationState.pending.code)]
        let draft ←
          match predecessorId with
          | none => Except.ok draft
          | some predecessorId => do
              let predecessorId ← predecessorId.u32
              draft.append (Key.operation index .predecessor).text
                (Text.decimal predecessorId)
        let record ← draft.encode params.recordCapacity
        return { record, operationId := id, index }

/-! ## Transitions -/

def setState (params : Params) (record : Text) (index : Nat) (state : OperationState) :
    Outcome Text := do
  match ← (Draft.ofRecord record).replace? (Key.operation index .state).text
      (Text.decimal state.code) with
  | some draft => draft.encode params.recordCapacity
  | none => Outcome.refuse (.noOperationAt index)

def requireReady (params : Params) (record : Text) (index : Nat) (now : Number) :
    Outcome Unit :=
  match state params record index now with
  | .ready => .ok ()
  | .expired => Outcome.refuse (.operationExpired index)
  | other => Outcome.refuse (.operationNotReady index other)

/-- Executes an operation without a look at its predecessor. -/
def execute (params : Params) (record : Text) (index : Nat) (now : Number) :
    Outcome Text := do
  requireReady params record index now
  setState params record index .done

/-- Whether the operation with an id is stored Done. -/
def isDone (record : Text) (id : Nat) : Bool :=
  match indexOf record id with
  | .ok index => storedState record index == .done
  | .error _ => false

/-- An operation can be executed when its predecessor, if it has one, is Done
and it is Ready itself. -/
def checkExecutable (params : Params) (record : Text) (index : Nat) (now : Number) :
    Outcome Unit :=
  let required := predecessor record index
  if required ≠ 0 ∧ ¬ isDone record required then
    Outcome.refuse (.predecessorNotDone required)
  else
    requireReady params record index now

/-- Executes an operation whose predecessor, if it has one, is Done. -/
def executeInOrder (params : Params) (record : Text) (index : Nat) (now : Number) :
    Outcome Text := do
  checkExecutable params record index now
  setState params record index .done

def cancel (params : Params) (record : Text) (index : Nat) (now : Number) :
    Outcome Text :=
  let state := state params record index now
  if state.isLive then setState params record index .unset
  else Outcome.refuse (.operationNotCancelable index state)

end Operations

end LedgerGovernance
