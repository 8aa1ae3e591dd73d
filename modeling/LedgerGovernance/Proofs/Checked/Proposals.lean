import LedgerGovernance.Proofs.Checked.Members
import LedgerGovernance.Proofs.Digests
import LedgerGovernance.Proofs.Ledger.Steps

/-! Proposals with every key and number checked. A proposal is looked for among those that
are counted, so that wherever a lookup leads, the keys there can be built. -/

namespace LedgerGovernance

namespace Proposals

theorem count_le (record : Text) : count record ≤ maxU8 :=
  Record.readCount_le record _

theorem indexOf_le {record : Text} {id index : Nat} (found : indexOf record id = .ok index) :
    index ≤ maxU8 := by
  rw [indexOf_eq_ofFound, Outcome.ofFound_eq_ok] at found
  exact Record.le_of_mem_range (List.mem_of_find?_eq_some found)

/-- The voting window of a proposal that is made in time either fits or is refused. -/
theorem window_cases (params : Params) {now : Nat} (nowFits : now ≤ maxU32) :
    (∃ voteStart voteEnd : Nat, voteStart ≤ maxU32 ∧ voteEnd ≤ maxU32 ∧
      (now : Number).checkedAdd params.votingDelay = some (voteStart : Number) ∧
      (voteStart : Number).checkedAdd params.votingPeriod = some (voteEnd : Number)) ∨
    ((now : Number).checkedAdd params.votingDelay).bind
      (fun voteStart => voteStart.checkedAdd params.votingPeriod) = none := by
  rw [Number.checkedAdd_natCast nowFits params.votingDelay_le]
  by_cases startFits : now + params.votingDelay ≤ maxU32
  case neg => exact .inr (by rw [if_neg startFits, Option.bind_none])
  rw [if_pos startFits, Option.bind_some,
    Number.checkedAdd_natCast startFits params.votingPeriod_le]
  by_cases endFits : now + params.votingDelay + params.votingPeriod ≤ maxU32
  case neg => exact .inr (if_neg endFits)
  refine .inl ⟨_, _, startFits, endFits, rfl, ?_⟩
  rw [Number.checkedAdd_natCast startFits params.votingPeriod_le, if_pos endFits]

end Proposals

theorem Digest.exists_proposalId {proposer : Account} (size : proposer.length = Account.size)
    {description now nonce : Nat} (descriptionFits : description ≤ maxU32)
    (nowFits : now ≤ maxU32) (nonceFits : nonce ≤ maxU8) :
    ∃ id : Nat, Digest.proposalId proposer description now nonce = .ok id ∧ id ≤ maxU32 :=
  have made := Digest.proposalId_eq size descriptionFits nowFits nonceFits
  ⟨_, made, Digest.proposalId_le made⟩

namespace Checked

variable {index : Nat}

/-! ## Proposals -/

def proposalField? (record : Text) (index : Nat) (field : ProposalField) :
    Outcome (Option Text) :=
  read? record (.proposal index field)

theorem proposalField?_eq (fits : index ≤ maxU8) (record : Text) (field : ProposalField) :
    proposalField? record index field = .ok (Proposals.field? record index field) :=
  read?_eq record (.proposal index field) fits

def proposalWord (record : Text) (index : Nat) (field : ProposalField) : Outcome Nat := do
  return ((← proposalField? record index field).bind Text.readU32?).getD 0

theorem proposalWord_eq (fits : index ≤ maxU8) (record : Text) (field : ProposalField) :
    proposalWord record index field = .ok (Proposals.word record index field) := by
  rw [proposalWord, proposalField?_eq fits]
  rfl

def proposalAmount (record : Text) (index : Nat) (field : ProposalField) : Outcome Nat := do
  return ((← proposalField? record index field).bind Text.readU64?).getD 0

theorem proposalAmount_eq (fits : index ≤ maxU8) (record : Text) (field : ProposalField) :
    proposalAmount record index field = .ok (Proposals.amount record index field) := by
  rw [proposalAmount, proposalField?_eq fits]
  rfl

def proposalStored (record : Text) (index : Nat) : Outcome ProposalState := do
  return (((← proposalField? record index .state).bind Text.readCount?).bind
    ProposalState.ofCode?).getD .pending

theorem proposalStored_eq (fits : index ≤ maxU8) (record : Text) :
    proposalStored record index = .ok (Proposals.storedState record index) := by
  rw [proposalStored, proposalField?_eq fits]
  rfl

def proposalAt? (record : Text) (index : Nat) : Outcome (Option Proposal) := do
  let id ← proposalField? record index .id
  let proposer ← proposalField? record index .proposer
  match id.bind Text.readU32?, proposer.bind Account.ofHex? with
  | some id, some proposer => do
      let voteStart ← proposalWord record index .voteStart
      let voteEnd ← proposalWord record index .voteEnd
      let storedState ← proposalStored record index
      let forVotes ← proposalAmount record index .inFavor
      let againstVotes ← proposalAmount record index .against
      let abstainVotes ← proposalAmount record index .abstain
      let description ← proposalWord record index .description
      return some {
        index, id, proposer, voteStart, voteEnd, storedState, forVotes, againstVotes,
        abstainVotes, description }
  | _, _ => return none

theorem proposalAt?_eq (fits : index ≤ maxU8) (record : Text) :
    proposalAt? record index = .ok (Proposals.at? record index) := by
  simp only [proposalAt?, proposalField?_eq fits, proposalWord_eq fits, proposalAmount_eq fits,
    proposalStored_eq fits, Outcome.ok_bind, Proposals.at?]
  cases Proposals.field? record index .id with
  | none => rfl
  | some id =>
  cases Proposals.field? record index .proposer with
  | none => cases parsed : Text.readU32? id <;> simp [parsed]
  | some proposer =>
      cases parsed : Text.readU32? id <;> cases owner : Account.ofHex? proposer <;>
        simp [parsed, owner]

def proposals (record : Text) : Outcome (List Proposal) := do
  let found ← (List.range (Proposals.count record)).mapM (proposalAt? record)
  return found.filterMap id

theorem proposals_eq (record : Text) : proposals record = .ok (Proposals.list record) := by
  have each : ∀ index ∈ List.range (Proposals.count record),
      proposalAt? record index = .ok (Proposals.at? record index) := fun index inside =>
    proposalAt?_eq (Record.le_of_mem_range inside) record
  rw [proposals, mapM_eq each, Outcome.ok_bind, List.filterMap_map]
  rfl

def proposalHasId (record target : Text) (index : Nat) : Outcome Bool := do
  return (← proposalField? record index .id) == some target

theorem proposalHasId_eq (fits : index ≤ maxU8) (record target : Text) :
    proposalHasId record target index =
      .ok (Proposals.field? record index .id == some target) := by
  rw [proposalHasId, proposalField?_eq fits]
  rfl

def proposalIndex (record : Text) (id : Nat) : Outcome Nat := do
  let target ← word (id : Number)
  let found ← (List.range (Proposals.count record)).findM? (proposalHasId record target)
  match found with
  | some index => .ok index
  | none => Outcome.refuse (.noProposalWithId id)

theorem proposalIndex_eq (record : Text) {id : Nat} (fits : id ≤ maxU32) :
    proposalIndex record id = Proposals.indexOf record id := by
  have each : ∀ index ∈ List.range (Proposals.count record),
      proposalHasId record (Text.decimal id) index =
        .ok (Proposals.field? record index .id == some (Text.decimal id)) :=
    fun index inside => proposalHasId_eq (Record.le_of_mem_range inside) ..
  rw [proposalIndex, word_natCast fits, Outcome.ok_bind, findM?_eq each]
  rfl

def proposalState (params : Params) (record : Text) (index : Nat) (now : Number)
    (total : Int) : Outcome ProposalState := do
  let stored ← proposalStored record index
  if stored.isExplicit then return stored
  else if now < ((← proposalWord record index .voteStart : Nat) : Number) then return .pending
  else if now ≤ ((← proposalWord record index .voteEnd : Nat) : Number) then return .active
  else
    let forVotes ← proposalAmount record index .inFavor
    let againstVotes ← proposalAmount record index .against
    let abstainVotes ← proposalAmount record index .abstain
    if Amount.saturatingAdd forVotes abstainVotes < Members.quorum params total then
      return .defeated
    else if againstVotes < forVotes then return .succeeded
    else return .defeated

theorem proposalState_eq (params : Params) (record : Text) (fits : index ≤ maxU8)
    (now : Number) (total : Int) :
    proposalState params record index now total =
      .ok (Proposals.state params record index now total) := by
  simp only [proposalState, proposalStored_eq fits, proposalWord_eq fits,
    proposalAmount_eq fits, Outcome.ok_bind, Outcome.pure_eq, Proposals.state,
    apply_ite Except.ok]

def propose (params : Params) (record : Text) (proposer : Account)
    (description now : Number) (votes : Int) : Outcome Proposals.Proposed :=
  let index := Proposals.count record
  if votes < params.proposalThreshold then
    Outcome.refuse (.belowThreshold votes params.proposalThreshold)
  else if params.maxProposals ≤ index then
    Outcome.refuse (.proposalLimit params.maxProposals)
  else
    let voteStart := now.checkedAdd params.votingDelay
    let voteEnd := voteStart.bind fun start => start.checkedAdd params.votingPeriod
    match voteStart, voteEnd with
    | some voteStart, some voteEnd => do
        let id ← Digest.proposalId proposer description now index
        let draft ← appendAll ((Draft.ofRecord record).remove Key.proposalCount.text) [
          (.proposalCount, word (index + 1 : Nat)),
          (.proposal index .id, word id),
          (.proposal index .proposer, proposer.hex),
          (.proposal index .state, word ProposalState.pending.code),
          (.proposal index .voteStart, word voteStart),
          (.proposal index .voteEnd, word voteEnd),
          (.proposal index .inFavor, amount 0),
          (.proposal index .against, amount 0),
          (.proposal index .abstain, amount 0),
          (.proposal index .description, word description)]
        let record ← draft.encode params.recordCapacity
        return { record, proposalId := id, index }
    | _, _ => Outcome.refuse (.votingWindow now)

theorem propose_eq (params : Params) (record : Text) {proposer : Account}
    (size : proposer.length = Account.size) {description now : Nat}
    (descriptionFits : description ≤ maxU32) (nowFits : now ≤ maxU32) (votes : Int) :
    propose params record proposer description now votes =
      Proposals.propose params record proposer description now votes := by
  have room := Proposals.count_le record
  have counted : Proposals.count record + 1 ≤ maxU32 :=
    Nat.le_trans (Nat.succ_le_succ room) (by decide)
  rcases Digest.exists_proposalId size descriptionFits nowFits room with ⟨id, idEq, idFits⟩
  rw [propose, Proposals.propose]
  dsimp only
  split
  · rfl
  split
  · rfl
  rcases Proposals.window_cases params nowFits with
    ⟨voteStart, voteEnd, startFits, endFits, startEq, endEq⟩ | closed
  case inr =>
    rw [closed]
    cases (now : Number).checkedAdd params.votingDelay <;> rfl
  rw [startEq, Option.bind_some, endEq]
  have appended := appendAll_eq ((Draft.ofRecord record).remove Key.proposalCount.text)
    (Proposals.opening (Proposals.count record)
      (Proposals.newField id (Text.hex proposer) voteStart voteEnd description))
    (by simp [Proposals.opening, ProposalField.all, Key.Addressable, room])
  simp only [idEq, word_natCast counted, word_natCast idFits, Account.hex_of_size size,
    word_natCast startFits, word_natCast endFits, word_natCast descriptionFits,
    Number.u32_natCast startFits, Number.u32_natCast endFits,
    Number.u32_natCast descriptionFits, Outcome.ok_bind]
  -- What follows the draft is the same on both sides.
  exact congrArg (fun made : Outcome Draft => made >>= fun draft =>
    draft.encode params.recordCapacity >>= fun next =>
      pure ({ record := next, proposalId := id, index := Proposals.count record } :
        Proposals.Proposed)) appended

def setProposalState (params : Params) (record : Text) (index code : Nat) :
    Outcome Text := do
  match ← (Draft.ofRecord record).replace? (← key (.proposal index .state)) (← word code) with
  | some draft => draft.encode params.recordCapacity
  | none => Outcome.refuse (.noProposalAt index)

theorem setProposalState_eq (params : Params) (record : Text) (fits : index ≤ maxU8)
    (state : ProposalState) :
    setProposalState params record index state.code =
      Proposals.setState params record index state.code := by
  have code : state.code ≤ maxU32 := by cases state <;> decide
  rw [setProposalState, key_eq (.proposal index .state) fits, word_natCast code]
  rfl

def cancel (params : Params) (record : Text) (index : Nat) (caller : Account)
    (now : Number) (total : Int) : Outcome Text := do
  match ← proposalField? record index .proposer with
  | none => Outcome.refuse (.noProposalAt index)
  | some proposer =>
      if Account.ofHex? proposer = some caller then
        match ← proposalState params record index now total with
        | .pending => setProposalState params record index ProposalState.canceled.code
        | other => Outcome.refuse (.notPending other)
      else
        Outcome.refuse .notProposer

theorem cancel_eq (params : Params) (record : Text) (fits : index ≤ maxU8) (caller : Account)
    (now : Number) (total : Int) :
    cancel params record index caller now total =
      Proposals.cancel params record index caller now total := by
  simp only [cancel, proposalField?_eq fits, proposalState_eq params record fits,
    setProposalState_eq params record fits, Outcome.ok_bind]
  rfl

def setLock (params : Params) (record : Text) (locked : Bool) : Outcome Text := do
  let draft ← (Draft.ofRecord record).set (← key .lock) [if locked then '1' else '0']
  draft.encode params.recordCapacity

theorem setLock_eq (params : Params) (record : Text) (locked : Bool) :
    setLock params record locked = Proposals.setLock params record locked := rfl

end Checked

/-! ## No argument is at fault -/

namespace Proposals

theorem indexOf_wellTyped (record : Text) (id : Nat) : (indexOf record id).WellTyped := by
  rw [indexOf_eq_ofFound]
  exact Outcome.ofFound_wellTyped _ _

theorem opening_plain (index id voteStart voteEnd description : Nat) (proposer : Account) :
    ∀ pair ∈ opening index (newField id (Text.hex proposer) voteStart voteEnd description),
      pair.2.all Entry.isPlain = true := by
  simp [-List.all_eq_true, opening, ProposalField.all, newField, Text.hex_plain, Text.decimal_plain]

theorem propose_wellTyped (params : Params) (record : Text) {proposer : Account}
    (size : proposer.length = Account.size) {description now : Nat}
    (descriptionFits : description ≤ maxU32) (nowFits : now ≤ maxU32) (votes : Int) :
    (propose params record proposer description now votes).WellTyped := by
  rcases Digest.exists_proposalId size descriptionFits nowFits (count_le record) with
    ⟨id, idEq, -⟩
  rw [propose]
  dsimp only
  split
  · exact Outcome.wellTyped_refuse _
  split
  · exact Outcome.wellTyped_refuse _
  rcases window_cases params nowFits with
    ⟨voteStart, voteEnd, startFits, endFits, startEq, endEq⟩ | closed
  case inr =>
    rw [closed]
    cases (now : Number).checkedAdd params.votingDelay <;> exact Outcome.wellTyped_refuse _
  rw [startEq, Option.bind_some, endEq]
  simp only [idEq, Account.hex_of_size size, Number.u32_natCast startFits,
    Number.u32_natCast endFits, Number.u32_natCast descriptionFits, Outcome.ok_bind]
  refine Outcome.WellTyped.bind (Draft.appendAll_wellTyped _ _
    (opening_plain (count record) id _ _ description proposer)) fun draft => ?_
  exact (draft.encode_wellTyped _).bind fun next => Outcome.wellTyped_ok _

theorem cancel_wellTyped (params : Params) (record : Text) (index : Nat) (caller : Account)
    (now : Number) (total : Int) : (cancel params record index caller now total).WellTyped := by
  unfold cancel
  split
  · exact Outcome.wellTyped_refuse _
  split
  · split
    · exact setState_wellTyped params record index _
    · exact Outcome.wellTyped_refuse _
  · exact Outcome.wellTyped_refuse _

end Proposals

end LedgerGovernance
