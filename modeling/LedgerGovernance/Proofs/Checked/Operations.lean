import LedgerGovernance.Proofs.Checked.Building
import LedgerGovernance.Proofs.Digests
import LedgerGovernance.Proofs.Ledger.Steps

/-! Timelock operations with every key and number checked. The predecessor that an operation
names is read off the record, so that it fits in 32 bits where it is looked for. -/

namespace LedgerGovernance

namespace Operations

theorem count_le (record : Text) : count record ≤ maxU8 :=
  Record.readCount_le record _

theorem indexOfProposal_le {record : Text} {proposalId index : Nat}
    (found : indexOfProposal record proposalId = .ok index) : index ≤ maxU8 := by
  rw [indexOfProposal_eq_ofFound, Outcome.ofFound_eq_ok] at found
  exact Record.le_of_mem_range (List.mem_reverse.mp (List.mem_of_find?_eq_some found))

theorem indexOf_le {record : Text} {id index : Nat} (found : indexOf record id = .ok index) :
    index ≤ maxU8 := by
  rw [indexOf_eq_ofFound, Outcome.ofFound_eq_ok] at found
  exact Record.le_of_mem_range (List.mem_of_find?_eq_some found)

theorem indexOf_wellTyped (record : Text) (id : Nat) : (indexOf record id).WellTyped := by
  rw [indexOf_eq_ofFound]
  exact Outcome.ofFound_wellTyped _ _

theorem predecessor_le (record : Text) (index : Nat) : predecessor record index ≤ maxU32 := by
  refine Text.getD_zero_le fun id read => ?_
  rcases Option.bind_eq_some_iff.mp read with ⟨text, -, parsed⟩
  exact Text.readU32?_le parsed

end Operations

theorem Digest.exists_operationId {proposalId now nonce : Nat} (idFits : proposalId ≤ maxU32)
    (nowFits : now ≤ maxU32) (nonceFits : nonce ≤ maxU8) :
    ∃ id : Nat, Digest.operationId proposalId now nonce = .ok id ∧ id ≤ maxU32 :=
  have made := Digest.operationId_eq idFits nowFits nonceFits
  ⟨_, made, Digest.operationId_le made⟩

namespace Checked

variable {index : Nat}

/-! ## Reading -/

def operationField? (record : Text) (index : Nat) (field : OperationField) :
    Outcome (Option Text) :=
  read? record (.operation index field)

theorem operationField?_eq (fits : index ≤ maxU8) (record : Text) (field : OperationField) :
    operationField? record index field = .ok (Operations.field? record index field) :=
  read?_eq record (.operation index field) fits

def operationWord (record : Text) (index : Nat) (field : OperationField) : Outcome Nat := do
  return ((← operationField? record index field).bind Text.readU32?).getD 0

theorem operationWord_eq (fits : index ≤ maxU8) (record : Text) (field : OperationField) :
    operationWord record index field = .ok (Operations.word record index field) := by
  rw [operationWord, operationField?_eq fits]
  rfl

def operationStored (record : Text) (index : Nat) : Outcome OperationState := do
  return (((← operationField? record index .state).bind Text.readCount?).bind
    OperationState.ofCode?).getD .unset

theorem operationStored_eq (fits : index ≤ maxU8) (record : Text) :
    operationStored record index = .ok (Operations.storedState record index) := by
  rw [operationStored, operationField?_eq fits]
  rfl

def operationAt? (record : Text) (index : Nat) : Outcome (Option Operation) := do
  match (← operationField? record index .id).bind Text.readU32? with
  | none => return none
  | some id => do
      let proposalId ← operationWord record index .proposal
      let readyAt ← operationWord record index .ready
      let storedState ← operationStored record index
      let predecessorId ← operationWord record index .predecessor
      return some { index, id, proposalId, readyAt, storedState, predecessorId }

theorem operationAt?_eq (fits : index ≤ maxU8) (record : Text) :
    operationAt? record index = .ok (Operations.at? record index) := by
  simp only [operationAt?, operationField?_eq fits, operationWord_eq fits,
    operationStored_eq fits, Outcome.ok_bind, Operations.at?]
  cases Operations.field? record index .id with
  | none => rfl
  | some id => cases parsed : Text.readU32? id <;> simp [parsed]

def operationState (params : Params) (record : Text) (index : Nat) (now : Number) :
    Outcome OperationState := do
  let stored ← operationStored record index
  if stored ≠ .pending then return stored
  else
    let readyAt ← operationWord record index .ready
    if now < (readyAt : Number) then return .pending
    else if (Operations.deadline params readyAt : Number) < now then return .expired
    else return .ready

theorem operationState_eq (params : Params) (record : Text) (fits : index ≤ maxU8)
    (now : Number) :
    operationState params record index now =
      .ok (Operations.state params record index now) := by
  simp only [operationState, operationStored_eq fits, operationWord_eq fits, Outcome.ok_bind,
    Outcome.pure_eq, Operations.state, apply_ite Except.ok]

def operationHas (record : Text) (field : OperationField) (target : Text) (index : Nat) :
    Outcome Bool := do
  return (← operationField? record index field) == some target

theorem operationHas_eq (fits : index ≤ maxU8) (record : Text) (field : OperationField)
    (target : Text) :
    operationHas record field target index =
      .ok (Operations.field? record index field == some target) := by
  rw [operationHas, operationField?_eq fits]
  rfl

def operationOfProposal (record : Text) (proposalId : Nat) : Outcome Nat := do
  let target ← word (proposalId : Number)
  let found ← (List.range (Operations.count record)).reverse.findM?
    (operationHas record .proposal target)
  match found with
  | some index => .ok index
  | none => Outcome.refuse (.noOperationFor proposalId)

theorem operationOfProposal_eq (record : Text) {proposalId : Nat}
    (fits : proposalId ≤ maxU32) :
    operationOfProposal record proposalId = Operations.indexOfProposal record proposalId := by
  have each : ∀ index ∈ (List.range (Operations.count record)).reverse,
      operationHas record .proposal (Text.decimal proposalId) index =
        .ok (Operations.field? record index .proposal == some (Text.decimal proposalId)) :=
    fun index inside => operationHas_eq (Record.le_of_mem_range (List.mem_reverse.mp inside)) ..
  rw [operationOfProposal, word_natCast fits, Outcome.ok_bind, findM?_eq each]
  rfl

def operationIndex (record : Text) (id : Nat) : Outcome Nat := do
  let target ← word (id : Number)
  let found ← (List.range (Operations.count record)).findM? (operationHas record .id target)
  match found with
  | some index => .ok index
  | none => Outcome.refuse (.noOperationWithId id)

theorem operationIndex_eq (record : Text) {id : Nat} (fits : id ≤ maxU32) :
    operationIndex record id = Operations.indexOf record id := by
  have each : ∀ index ∈ List.range (Operations.count record),
      operationHas record .id (Text.decimal id) index =
        .ok (Operations.field? record index .id == some (Text.decimal id)) :=
    fun index inside => operationHas_eq (Record.le_of_mem_range inside) ..
  rw [operationIndex, word_natCast fits, Outcome.ok_bind, findM?_eq each]
  rfl

/-! ## Scheduling -/

def isLiveFor (params : Params) (record : Text) (proposalId now : Number) (index : Nat) :
    Outcome Bool := do
  let linked ← operationWord record index .proposal
  if (linked : Number) == proposalId then
    return (← operationState params record index now).isLive
  else
    return false

def schedule (params : Params) (record : Text) (proposalId now delay : Number) :
    Outcome Operations.Scheduled := do
  let index := Operations.count record
  if delay < (params.timelockMinDelay : Number) then
    Outcome.refuse (.delayTooShort delay params.timelockMinDelay)
  else if ← (List.range index).anyM (isLiveFor params record proposalId now) then
    Outcome.refuse (.alreadyQueued proposalId)
  else if maxU8 < index then
    Outcome.refuse .noOperationSlot
  else
    match now.checkedAdd delay with
    | none => Outcome.refuse (.readyTime now delay)
    | some readyAt => do
        let id ← Digest.operationId proposalId now index
        let draft ← appendAll ((Draft.ofRecord record).remove Key.operationCount.text) [
          (.operationCount, word (index + 1 : Nat)),
          (.operation index .id, word id),
          (.operation index .proposal, word proposalId),
          (.operation index .ready, word readyAt),
          (.operation index .state, word OperationState.pending.code)]
        let record ← draft.encode params.recordCapacity
        return { record, operationId := id, index }

theorem hasLive_eq (params : Params) (record : Text) (proposalId now : Number) :
    (List.range (Operations.count record)).anyM (isLiveFor params record proposalId now) =
      .ok (Operations.hasLive params record proposalId now) := by
  refine anyM_eq fun index inside => ?_
  have fits := Record.le_of_mem_range inside
  rw [isLiveFor, operationWord_eq fits, Outcome.ok_bind, operationState_eq params record fits]
  cases (Operations.word record index .proposal : Number) == proposalId <;> rfl

theorem schedule_eq (params : Params) (record : Text) {proposalId now delay : Nat}
    (idFits : proposalId ≤ maxU32) (nowFits : now ≤ maxU32) (delayFits : delay ≤ maxU32) :
    schedule params record proposalId now delay =
      Operations.schedule params record proposalId now delay none := by
  have room := Operations.count_le record
  have counted : Operations.count record + 1 ≤ maxU32 :=
    Nat.le_trans (Nat.succ_le_succ room) (by decide)
  rcases Digest.exists_operationId idFits nowFits room with ⟨id, idEq, hashFits⟩
  simp only [schedule, Operations.schedule, hasLive_eq, Outcome.ok_bind]
  split
  · rfl
  split
  · rfl
  split
  · rfl
  rw [Number.checkedAdd_natCast nowFits delayFits]
  by_cases readyFits : now + delay ≤ maxU32
  case neg => rw [if_neg readyFits]
  rw [if_pos readyFits]
  have appended := appendAll_eq ((Draft.ofRecord record).remove Key.operationCount.text)
    (Operations.opening (Operations.count record)
      (Operations.newField id proposalId (now + delay) none))
    (by simp [Operations.opening, Operations.newField, OperationField.all, Key.Addressable,
      room])
  simp only [idEq, word_natCast counted, word_natCast hashFits, word_natCast idFits,
    word_natCast readyFits, Number.u32_natCast idFits, Number.u32_natCast readyFits,
    Outcome.ok_bind]
  exact congrArg (fun made : Outcome Draft => made >>= fun draft =>
    draft.encode params.recordCapacity >>= fun next =>
      pure ({ record := next, operationId := id, index := Operations.count record } :
        Operations.Scheduled)) appended

/-! ## Transitions -/

def setOperationState (params : Params) (record : Text) (index : Nat)
    (state : OperationState) : Outcome Text := do
  match ← (Draft.ofRecord record).replace? (← key (.operation index .state))
      (← word state.code) with
  | some draft => draft.encode params.recordCapacity
  | none => Outcome.refuse (.noOperationAt index)

theorem setOperationState_eq (params : Params) (record : Text) (fits : index ≤ maxU8)
    (state : OperationState) :
    setOperationState params record index state =
      Operations.setState params record index state := by
  have code : state.code ≤ maxU32 := by cases state <;> decide
  rw [setOperationState, key_eq (.operation index .state) fits, word_natCast code]
  rfl

def requireReady (params : Params) (record : Text) (index : Nat) (now : Number) :
    Outcome Unit := do
  match ← operationState params record index now with
  | .ready => .ok ()
  | .expired => Outcome.refuse (.operationExpired index)
  | other => Outcome.refuse (.operationNotReady index other)

theorem requireReady_eq (params : Params) (record : Text) (fits : index ≤ maxU8)
    (now : Number) :
    requireReady params record index now = Operations.requireReady params record index now := by
  rw [requireReady, operationState_eq params record fits]
  rfl

def isDone (record : Text) (id : Nat) : Outcome Bool := do
  match ← attempt (operationIndex record id) with
  | some index => return (← operationStored record index) == .done
  | none => return false

theorem isDone_eq (record : Text) {id : Nat} (fits : id ≤ maxU32) :
    isDone record id = .ok (Operations.isDone record id) := by
  rw [isDone, operationIndex_eq record fits, attempt_eq (Operations.indexOf_wellTyped record id),
    Operations.isDone]
  cases found : Operations.indexOf record id with
  | error fault => rfl
  | ok index =>
      rw [Outcome.ok_bind]
      dsimp only [Except.toOption]
      rw [operationStored_eq (Operations.indexOf_le found)]
      rfl

def checkExecutable (params : Params) (record : Text) (index : Nat) (now : Number) :
    Outcome Unit := do
  let required ← operationWord record index .predecessor
  if required = 0 then requireReady params record index now
  else if ← isDone record required then requireReady params record index now
  else Outcome.refuse (.predecessorNotDone required)

theorem checkExecutable_eq (params : Params) (record : Text) (fits : index ≤ maxU8)
    (now : Number) :
    checkExecutable params record index now =
      Operations.checkExecutable params record index now := by
  rw [checkExecutable, operationWord_eq fits, Outcome.ok_bind,
    requireReady_eq params record fits, ← Operations.predecessor,
    isDone_eq record (Operations.predecessor_le record index), Outcome.ok_bind,
    Operations.checkExecutable]
  by_cases none : Operations.predecessor record index = 0
  · simp [none]
  · cases Operations.isDone record (Operations.predecessor record index) <;> simp [none]

def executeInOrder (params : Params) (record : Text) (index : Nat) (now : Number) :
    Outcome Text := do
  checkExecutable params record index now
  setOperationState params record index .done

theorem executeInOrder_eq (params : Params) (record : Text) (fits : index ≤ maxU8)
    (now : Number) :
    executeInOrder params record index now =
      Operations.executeInOrder params record index now := by
  rw [executeInOrder, checkExecutable_eq params record fits,
    setOperationState_eq params record fits]
  rfl

end Checked

/-! ## No argument is at fault -/

namespace Operations

theorem opening_plain (index id proposalId readyAt : Nat) :
    ∀ pair ∈ opening index (newField id proposalId readyAt none),
      pair.2.all Entry.isPlain = true := by
  simp [-List.all_eq_true, opening, OperationField.all, newField, Text.decimal_plain]

theorem schedule_wellTyped (params : Params) (record : Text) {proposalId now delay : Nat}
    (idFits : proposalId ≤ maxU32) (nowFits : now ≤ maxU32) (delayFits : delay ≤ maxU32) :
    (schedule params record proposalId now delay none).WellTyped := by
  rcases Digest.exists_operationId idFits nowFits (count_le record) with ⟨id, idEq, -⟩
  unfold schedule
  dsimp only
  split
  · exact Outcome.wellTyped_refuse _
  split
  · exact Outcome.wellTyped_refuse _
  split
  · exact Outcome.wellTyped_refuse _
  rw [Number.checkedAdd_natCast nowFits delayFits]
  by_cases readyFits : now + delay ≤ maxU32
  case neg => rw [if_neg readyFits]; exact Outcome.wellTyped_refuse _
  rw [if_pos readyFits]
  simp only [idEq, Number.u32_natCast idFits, Number.u32_natCast readyFits, Outcome.ok_bind]
  refine Outcome.WellTyped.bind (Draft.appendAll_wellTyped _ _
    (opening_plain (count record) id proposalId (now + delay))) fun draft => ?_
  exact (draft.encode_wellTyped _).bind fun next => Outcome.wellTyped_ok _

end Operations

end LedgerGovernance
