import LedgerGovernance.Action
import LedgerGovernance.Proofs.Record.Revisions

/-! What each operation of the ledger does to a record when it succeeds: which checks
were passed, which revision was made, and how the new record answers its keys. Nothing is
assumed of the record; where an entry is appended, an older one under the same key keeps
answering. -/

namespace LedgerGovernance

open Record (Put Revised read?)

/-! ## Members -/

namespace Members

/-- How a member is entered: over its own entry, or behind all others under the next
index. -/
inductive Entered (params : Params) (record : Text) (account : Account) (entry next : Text) :
    Prop
  | replaced (member : Member) (found : find? record account = some member)
      (revised : Revised params.recordCapacity record (.member member.index) (some entry) []
        next)
  | added (missing : find? record account = none) (room : count record < params.maxMembers)
      (revised : Revised params.recordCapacity record .memberCount none [
        (.memberCount, Text.decimal (count record + 1)), (.member (count record), entry)] next)

theorem set_eq_ok {params : Params} {record next : Text} {account : Account} {power : Int}
    {mask : Number} (done : set params record account power mask = .ok next) :
    ∃ amount roles, Amount.u64? power = some amount ∧ roleMask? mask = some roles ∧
      account.length = Account.size ∧
      Entered params record account (entryText (Text.hex account) amount roles) next := by
  unfold set at done
  split at done
  · cases done
  rename_i amount amountEq
  split at done
  · cases done
  rename_i roles rolesEq
  rcases Outcome.bind_eq_ok.mp done with ⟨hex, hexEq, written⟩
  rcases Account.hex_eq_ok.mp hexEq with ⟨size, rfl⟩
  refine ⟨amount, roles, amountEq, rolesEq, size, ?_⟩
  split at written
  · rename_i member found
    rcases Outcome.bind_eq_ok.mp written with ⟨replaced, replacing, written⟩
    cases replaced with
    | none => cases written
    | some draft => exact .replaced member found (.of_encode (.replaced replacing) written)
  · rename_i missing
    dsimp only at written
    split at written
    · cases written
    · rename_i room
      rcases Outcome.bind_eq_ok.mp written with ⟨draft, appending, written⟩
      have revised := (Draft.Revised.removed (Draft.ofRecord record) .memberCount).appendAll
        [(.memberCount, _), (.member (count record), _)] appending
      exact .added missing (Nat.lt_of_not_le room) (.of_encode revised written)

theorem requireRole_eq_ok {record : Text} {account : Account} {role : Role} {granted : Unit}
    (done : requireRole record account role = .ok granted) :
    hasRole record account role.bit = true := by
  unfold requireRole at done
  split at done
  · assumption
  · rcases Outcome.bind_eq_ok.mp done with ⟨_, -, done⟩
    cases done

end Members

/-! ## Delegations and snapshots -/

namespace Delegations

/-- A delegation to the voter itself is none. -/
inductive Delegated (params : Params) (record : Text) (voter target : Account) (next : Text) :
    Prop
  | withdrawn (same : voter = target)
      (revised : Revised params.recordCapacity record (.delegate voter) none [] next)
  | given (different : voter ≠ target)
      (put : Put params.recordCapacity record (.delegate voter) (Text.hex target) next)

theorem Delegated.read?_eq {params : Params} {record next : Text} {voter target : Account}
    (delegated : Delegated params record voter target next) :
    read? next = Function.update (read? record) (.delegate voter)
      (if voter = target then none else some (Text.hex target)) := by
  cases delegated with
  | withdrawn same revised => rw [if_pos same, revised.read?_eq_update]
  | given different put => rw [if_neg different, put.read?_eq]

theorem delegate_eq_ok {params : Params} {record next : Text} {voter target : Account}
    (done : delegate params record voter target = .ok next) :
    voter.length = Account.size ∧ target.length = Account.size ∧
      Delegated params record voter target next := by
  rcases Outcome.bind_eq_ok.mp done with ⟨hex, hexEq, written⟩
  have size := (Account.hex_eq_ok.mp hexEq).1
  dsimp only at written
  split at written
  · rename_i same
    exact ⟨size, same ▸ size, .withdrawn same (.of_encode (.removed _ _) written)⟩
  · rename_i different
    rcases Outcome.bind_eq_ok.mp written with ⟨targetHex, targetHexEq, written⟩
    rcases Account.hex_eq_ok.mp targetHexEq with ⟨targetSize, rfl⟩
    rcases Outcome.bind_eq_ok.mp written with ⟨draft, setting, written⟩
    exact ⟨size, targetSize, .given different (.of_encode (.set setting) written)⟩

/-- A snapshot is read where there is one, and taken where there is none. -/
inductive Taken (params : Params) (record : Text) (proposalId : Nat) (account : Account) :
    Snapshot → Prop
  | before (votingPower : Nat)
      (stored : (Record.read? record (.snapshot proposalId account)).bind Text.readU64? =
        some votingPower) :
      Taken params record proposalId account { record, votingPower }
  | now {next : Text} (fits : effectiveVotes record account ≤ maxU64)
      (missing : (Record.read? record (.snapshot proposalId account)).bind Text.readU64? =
        none)
      (put : Put params.recordCapacity record (.snapshot proposalId account)
        (Text.decimal (effectiveVotes record account)) next) :
      Taken params record proposalId account
        { record := next, votingPower := effectiveVotes record account }

theorem snapshot_eq_ok {params : Params} {record : Text} {proposalId : Number}
    {account : Account} {taken : Snapshot}
    (done : snapshot params record proposalId account = .ok taken) :
    account.length = Account.size ∧ ∃ id : Nat, proposalId.u32 = .ok id ∧
      Taken params record id account taken := by
  rcases Outcome.bind_eq_ok.mp done with ⟨hex, hexEq, rest⟩
  rcases Outcome.bind_eq_ok.mp rest with ⟨id, idEq, rest⟩
  refine ⟨(Account.hex_eq_ok.mp hexEq).1, id, idEq, ?_⟩
  dsimp only at rest
  split at rest
  · rename_i votingPower stored
    cases rest
    exact .before votingPower stored
  · rename_i missing
    rcases Outcome.bind_eq_ok.mp rest with ⟨power, powerEq, rest⟩
    rcases Outcome.bind_eq_ok.mp rest with ⟨draft, setting, rest⟩
    rcases Outcome.bind_eq_ok.mp rest with ⟨next, encoding, rest⟩
    cases rest
    rcases Amount.u64_eq_ok.mp powerEq with ⟨same, fits⟩
    cases Int.ofNat.inj same
    exact .now fits missing (.of_encode (.set setting) encoding)

end Delegations

/-! ## Proposals and the lock -/

namespace Proposals

/-- The fields of a new proposal, on which nobody has voted. -/
def newField (id : Nat) (proposer : Text) (voteStart voteEnd description : Nat) :
    ProposalField → Text
  | .id => Text.decimal id
  | .proposer => proposer
  | .state => Text.decimal ProposalState.pending.code
  | .voteStart => Text.decimal voteStart
  | .voteEnd => Text.decimal voteEnd
  | .inFavor | .against | .abstain => Text.decimal 0
  | .description => Text.decimal description

/-- The entries of a new proposal, behind the counter that now counts it. -/
def opening (index : Nat) (value : ProposalField → Text) : List (Key × Text) :=
  (.proposalCount, Text.decimal (index + 1)) ::
    ProposalField.all.map fun field => (.proposal index field, value field)

/-- What a proposal was created from, with its voting window. -/
structure Opened (params : Params) (record : Text) (proposer : Account)
    (description now : Number) (votes : Int) (proposed : Proposed)
    (voteStart voteEnd hash : Nat) : Prop where
  threshold : (params.proposalThreshold : Int) ≤ votes
  room : count record < params.maxProposals
  start_eq : now.checkedAdd params.votingDelay = some (voteStart : Number)
  end_eq : (voteStart : Number).checkedAdd params.votingPeriod = some (voteEnd : Number)
  voteStart_le : voteStart ≤ maxU32
  voteEnd_le : voteEnd ≤ maxU32
  description_eq : description.u32 = .ok hash
  id_eq : Digest.proposalId proposer description now (count record) = .ok proposed.proposalId
  proposer_size : proposer.length = Account.size
  index_eq : proposed.index = count record
  revised : Revised params.recordCapacity record .proposalCount none
    (opening (count record)
      (newField proposed.proposalId (Text.hex proposer) voteStart voteEnd hash))
    proposed.record

theorem propose_eq_ok {params : Params} {record : Text} {proposer : Account}
    {description now : Number} {votes : Int} {proposed : Proposed}
    (done : propose params record proposer description now votes = .ok proposed) :
    ∃ voteStart voteEnd hash,
      Opened params record proposer description now votes proposed voteStart voteEnd hash := by
  unfold propose at done
  dsimp only at done
  split at done
  · cases done
  rename_i threshold
  split at done
  · cases done
  rename_i room
  split at done
  · rename_i voteStart voteEnd startEq endEq
    rw [startEq, Option.bind_some] at endEq
    simp only [Outcome.bind_eq_ok, Outcome.pure_eq_ok] at done
    rcases done with ⟨id, idEq, hex, hexEq, startWord, startWordEq, endWord, endWordEq, hash,
      hashEq, draft, appending, next, encoding, rfl⟩
    rcases Account.hex_eq_ok.mp hexEq with ⟨size, rfl⟩
    rcases Number.u32_eq_ok.mp startWordEq with ⟨rfl, startFits⟩
    rcases Number.u32_eq_ok.mp endWordEq with ⟨rfl, endFits⟩
    have revised := (Draft.Revised.removed (Draft.ofRecord record) .proposalCount).appendAll
      (opening (count record) (newField id (Text.hex proposer) startWord endWord hash)) appending
    exact ⟨startWord, endWord, hash, {
      threshold := Int.not_lt.mp threshold
      room := Nat.lt_of_not_le room
      start_eq := startEq
      end_eq := endEq
      voteStart_le := startFits
      voteEnd_le := endFits
      description_eq := hashEq
      id_eq := idEq
      proposer_size := size
      index_eq := rfl
      revised := .of_encode revised encoding }⟩
  · cases done

theorem Opened.voteStart_le_voteEnd {params : Params} {record : Text} {proposer : Account}
    {description now : Number} {votes : Int} {proposed : Proposed}
    {voteStart voteEnd hash : Nat}
    (opened : Opened params record proposer description now votes proposed voteStart voteEnd
      hash) : voteStart ≤ voteEnd := by
  rw [Number.eq_add_of_checkedAdd opened.voteStart_le params.votingPeriod_le opened.end_eq]
  exact Nat.le_add_right _ _

theorem setState_eq_ok {params : Params} {record next : Text} {index code : Nat}
    (done : setState params record index code = .ok next) :
    Revised params.recordCapacity record (.proposal index .state) (some (Text.decimal code)) []
      next := by
  rcases Outcome.bind_eq_ok.mp done with ⟨replaced, replacing, written⟩
  cases replaced with
  | none => cases written
  | some draft => exact .of_encode (.replaced replacing) written

theorem cancel_eq_ok {params : Params} {record next : Text} {index : Nat} {caller : Account}
    {now : Number} {total : Int}
    (done : cancel params record index caller now total = .ok next) :
    (field? record index .proposer).bind Account.ofHex? = some caller ∧
      state params record index now total = .pending ∧
      Revised params.recordCapacity record (.proposal index .state)
        (some (Text.decimal ProposalState.canceled.code)) [] next := by
  unfold cancel at done
  split at done
  · cases done
  rename_i proposer proposerEq
  split at done
  · rename_i same
    split at done
    · rename_i pending
      exact ⟨by rw [proposerEq, Option.bind_some, same], pending, setState_eq_ok done⟩
    · cases done
  · cases done

theorem setLock_eq_ok {params : Params} {record next : Text} {locked : Bool}
    (done : setLock params record locked = .ok next) :
    Put params.recordCapacity record .lock [if locked then '1' else '0'] next := by
  rcases Outcome.bind_eq_ok.mp done with ⟨draft, setting, written⟩
  exact .of_encode (.set setting) written

theorem indexOf_eq_ofFound (record : Text) (id : Nat) :
    indexOf record id = .ofFound (.noProposalWithId id)
      ((List.range (count record)).find? fun index =>
        field? record index .id == some (Text.decimal id)) := by
  unfold indexOf
  cases List.find? _ (List.range (count record)) <;> rfl

end Proposals

/-! ## Votes -/

namespace Ballots

/-- What a counted vote has passed, and how its tally and its entry are written. -/
structure Counted (params : Params) (record : Text) (index : Nat) (voter : Account)
    (support : VoteSupport) (weight : Nat) (now : Number) (total : Int) (next : Text) :
    Prop where
  active : Proposals.state params record index now total = .active
  first : hasVoted record index voter = false
  fits : Proposals.amount record index (tallyField support) + weight ≤ maxU64
  room : count record index ≤ maxU8
  voter_size : voter.length = Account.size
  revised : Revised params.recordCapacity record (.proposal index (tallyField support))
    (some (Text.decimal (Proposals.amount record index (tallyField support) + weight)))
    [(.vote index (count record index), entryText (Text.hex voter) support weight)] next

/-- A tally is moved on by a weight that is an amount, as far as 64 bits go. -/
theorem nextTally?_eq_some {current next : Nat} {weight : Int} :
    nextTally? current weight = some next ↔
      ∃ amount : Nat, weight = amount ∧ current + amount ≤ maxU64 ∧ next = current + amount := by
  simp only [nextTally?, Option.bind_eq_bind, Option.bind_eq_some_iff, Amount.checkedAdd,
    Option.ite_none_right_eq_some, Option.some.injEq, Amount.u64?_eq_some]
  constructor
  · rintro ⟨amount, ⟨rfl, -⟩, sum, ⟨fits, rfl⟩, sumEq, -⟩
    exact ⟨amount, rfl, by omega, by omega⟩
  · rintro ⟨amount, rfl, fits, rfl⟩
    exact ⟨amount, ⟨rfl, by omega⟩, current + amount, ⟨by omega, rfl⟩, by omega, fits⟩

theorem judgeSupport_eq_ok {support : Number} {choice : VoteSupport} :
    judgeSupport support = .ok choice ↔ VoteSupport.ofNumber? support = some choice := by
  unfold judgeSupport
  cases VoteSupport.ofNumber? support <;> simp

theorem cast_eq_ok {params : Params} {record next : Text} {index : Nat} {voter : Account}
    {support : VoteSupport} {weight : Int} {now : Number} {total : Int}
    (done : cast params record index voter support weight now total = .ok next) :
    ∃ amount : Nat, weight = amount ∧
      Counted params record index voter support amount now total next := by
  unfold cast at done
  dsimp only at done
  split at done
  · cases done
  rename_i active
  split at done
  · cases done
  rename_i first
  split at done
  · cases done
  rename_i tally tallyEq
  split at done
  · cases done
  rename_i room
  rcases nextTally?_eq_some.mp tallyEq with ⟨amount, rfl, fits, rfl⟩
  rcases Outcome.bind_eq_ok.mp done with ⟨replaced, replacing, rest⟩
  cases replaced with
  | none => cases rest
  | some draft =>
      simp only [Outcome.bind_eq_ok] at rest
      rcases rest with ⟨hex, hexEq, power, powerEq, longer, appending, encoding⟩
      rcases Account.hex_eq_ok.mp hexEq with ⟨size, rfl⟩
      rcases Amount.u64_eq_ok.mp powerEq with ⟨same, -⟩
      cases Int.ofNat.inj same
      exact ⟨amount, rfl, {
        active := Decidable.not_not.mp active
        first := (Bool.not_eq_true _).mp first
        fits
        room := Nat.le_of_not_lt room
        voter_size := size
        revised := .of_encode ((Draft.Revised.replaced replacing).append appending) encoding }⟩

/-- A vote from outside that is counted has a support, an index and a weight. -/
theorem castAt_eq_ok {params : Params} {record next : Text} {index support : Number}
    {voter : Account} {weight : Int} {now : Number} {total : Int}
    (done : castAt params record index voter support weight now total = .ok next) :
    ∃ (place : Nat) (choice : VoteSupport) (amount : Nat), index = (place : Number) ∧
      place ≤ maxU8 ∧ VoteSupport.ofNumber? support = some choice ∧ weight = amount ∧
      Counted params record place voter choice amount now total next := by
  rcases Outcome.bind_eq_ok.mp done with ⟨choice, judging, done⟩
  rcases Outcome.bind_eq_ok.mp done with ⟨place, placing, casting⟩
  rcases Number.keyIndex_eq_ok.mp placing with ⟨rfl, fits⟩
  rcases cast_eq_ok casting with ⟨amount, rfl, counted⟩
  exact ⟨place, choice, amount, rfl, fits, judgeSupport_eq_ok.mp judging, rfl, counted⟩

end Ballots

/-! ## Vote intents -/

namespace Intents

theorem submit_eq_ok {params : Params} {record next : Text} {proposalId support : Number}
    {voter : Account} (done : submit params record proposalId support voter = .ok next) :
    ∃ (id : Nat) (choice : VoteSupport), proposalId.u32 = .ok id ∧
      VoteSupport.ofNumber? support = some choice ∧ voter.length = Account.size ∧
      Record.read? record (.intent id voter) = none ∧
      Put params.recordCapacity record (.intent id voter) (Text.decimal choice.code) next := by
  unfold submit at done
  split at done
  · cases done
  rename_i wellFormed
  simp only [Outcome.bind_eq_ok] at done
  rcases done with ⟨hex, hexEq, id, idEq, done⟩
  split at done
  · cases done
  rename_i missing
  simp only [Outcome.bind_eq_ok] at done
  rcases done with ⟨code, codeEq, draft, appending, encoding⟩
  rcases Number.u32_eq_ok.mp codeEq with ⟨rfl, fits⟩
  cases choiceEq : VoteSupport.ofNumber? (code : Number) with
  | none => simp [isWellFormed, choiceEq] at wellFormed
  | some choice =>
      cases Number.natCast_inj.mp (VoteSupport.ofNumber?_eq_some choiceEq)
      have unset : Record.read? record (.intent id voter) = none := by simpa using missing
      exact ⟨id, choice, idEq, rfl, (Account.hex_eq_ok.mp hexEq).1, unset,
        .of_append unset appending encoding⟩

end Intents

/-! ## Timelock operations -/

namespace Operations

/-- The fields of a new operation, which may have no predecessor. -/
def newField (id proposalId readyAt : Nat) (predecessor : Option Nat) :
    OperationField → Option Text
  | .id => some (Text.decimal id)
  | .proposal => some (Text.decimal proposalId)
  | .ready => some (Text.decimal readyAt)
  | .state => some (Text.decimal OperationState.pending.code)
  | .predecessor => predecessor.map Text.decimal

/-- The entries of a new operation, behind the counter that now counts it. -/
def opening (index : Nat) (value : OperationField → Option Text) : List (Key × Text) :=
  (.operationCount, Text.decimal (index + 1)) :: OperationField.all.filterMap fun field =>
    (value field).map fun text => (.operation index field, text)

/-- What an operation was scheduled from. -/
structure Opened (params : Params) (record : Text) (proposalId now delay : Number)
    (predecessor : Option Nat) (scheduled : Scheduled) (id readyAt : Nat) : Prop where
  delay_le : ¬ delay < (params.timelockMinDelay : Number)
  idle : hasLive params record proposalId now = false
  room : count record ≤ maxU8
  ready_eq : now.checkedAdd delay = some (readyAt : Number)
  readyAt_le : readyAt ≤ maxU32
  proposalId_eq : proposalId.u32 = .ok id
  id_eq : Digest.operationId proposalId now (count record) = .ok scheduled.operationId
  index_eq : scheduled.index = count record
  revised : Revised params.recordCapacity record .operationCount none
    (opening (count record) (newField scheduled.operationId id readyAt predecessor))
    scheduled.record

theorem schedule_eq_ok {params : Params} {record : Text} {proposalId now delay : Number}
    {predecessorId : Option Number} {scheduled : Scheduled}
    (done : schedule params record proposalId now delay predecessorId = .ok scheduled) :
    ∃ (id readyAt : Nat) (predecessor : Option Nat),
      predecessorId = predecessor.map (fun (id : Nat) => (id : Number)) ∧
      (∀ id ∈ predecessor, id ≤ maxU32) ∧
      Opened params record proposalId now delay predecessor scheduled id readyAt := by
  unfold schedule at done
  dsimp only at done
  split at done
  · cases done
  rename_i longEnough
  split at done
  · cases done
  rename_i idle
  split at done
  · cases done
  rename_i room
  split at done
  · cases done
  rename_i readyAt readyEq
  simp only [Outcome.bind_eq_ok] at done
  rcases done with ⟨operationId, operationIdEq, id, idEq, ready, readyWordEq, draft, appending,
    rest⟩
  rcases Number.u32_eq_ok.mp readyWordEq with ⟨rfl, readyFits⟩
  have opened := (Draft.Revised.removed (Draft.ofRecord record) .operationCount).appendAll
    (opening (count record) (newField operationId id ready none)) appending
  have passed (predecessor : Option Nat) (next : Text) (revised : Revised _ _ _ _ _ next) :
      Opened params record proposalId now delay predecessor
        { record := next, operationId, index := count record } id ready := {
    delay_le := longEnough
    idle := (Bool.not_eq_true _).mp idle
    room := Nat.le_of_not_lt room
    ready_eq := readyEq
    readyAt_le := readyFits
    proposalId_eq := idEq
    id_eq := operationIdEq
    index_eq := rfl
    revised := revised }
  cases predecessorId with
  | none =>
      simp only [Outcome.bind_eq_ok, Outcome.pure_eq_ok] at rest
      rcases rest with ⟨same, sameEq, next, encoding, rfl⟩
      cases sameEq
      exact ⟨id, ready, none, rfl, by simp, passed none next (.of_encode opened encoding)⟩
  | some predecessorId =>
      simp only [Outcome.bind_eq_ok, Outcome.pure_eq_ok] at rest
      rcases rest with ⟨predecessor, predecessorEq, longer, extending, next, encoding, rfl⟩
      rcases Number.u32_eq_ok.mp predecessorEq with ⟨rfl, fits⟩
      exact ⟨id, ready, some predecessor, rfl, by simpa using fits,
        passed (some predecessor) next (.of_encode (opened.append extending) encoding)⟩

theorem setState_eq_ok {params : Params} {record next : Text} {index : Nat}
    {state : OperationState} (done : setState params record index state = .ok next) :
    Revised params.recordCapacity record (.operation index .state)
      (some (Text.decimal state.code)) [] next := by
  rcases Outcome.bind_eq_ok.mp done with ⟨replaced, replacing, written⟩
  cases replaced with
  | none => cases written
  | some draft => exact .of_encode (.replaced replacing) written

theorem requireReady_eq_ok {params : Params} {record : Text} {index : Nat} {now : Number}
    {checked : Unit} (done : requireReady params record index now = .ok checked) :
    state params record index now = .ready := by
  unfold requireReady at done
  split at done
  · assumption
  · cases done
  · cases done

theorem checkExecutable_eq_ok {params : Params} {record : Text} {index : Nat} {now : Number}
    {checked : Unit} (done : checkExecutable params record index now = .ok checked) :
    (predecessor record index = 0 ∨ isDone record (predecessor record index) = true) ∧
      state params record index now = .ready := by
  unfold checkExecutable at done
  dsimp only at done
  split at done
  · cases done
  · rename_i ordered
    refine ⟨?_, requireReady_eq_ok done⟩
    by_cases none : predecessor record index = 0
    · exact .inl none
    · exact .inr (Decidable.not_not.mp fun undone => ordered ⟨none, undone⟩)

theorem isDone_iff {record : Text} {id : Nat} :
    isDone record id = true ↔
      ∃ index, indexOf record id = .ok index ∧ storedState record index = .done := by
  unfold isDone
  cases indexOf record id <;> simp

theorem execute_eq_ok {params : Params} {record next : Text} {index : Nat} {now : Number}
    (done : execute params record index now = .ok next) :
    state params record index now = .ready ∧
      Revised params.recordCapacity record (.operation index .state)
        (some (Text.decimal OperationState.done.code)) [] next := by
  rcases Outcome.bind_eq_ok.mp done with ⟨checked, checking, marking⟩
  exact ⟨requireReady_eq_ok checking, setState_eq_ok marking⟩

theorem executeInOrder_eq_ok {params : Params} {record next : Text} {index : Nat}
    {now : Number} (done : executeInOrder params record index now = .ok next) :
    (predecessor record index = 0 ∨ isDone record (predecessor record index) = true) ∧
      state params record index now = .ready ∧
      Revised params.recordCapacity record (.operation index .state)
        (some (Text.decimal OperationState.done.code)) [] next := by
  rcases Outcome.bind_eq_ok.mp done with ⟨checked, checking, marking⟩
  rcases checkExecutable_eq_ok checking with ⟨ordered, ready⟩
  exact ⟨ordered, ready, setState_eq_ok marking⟩

theorem cancel_eq_ok {params : Params} {record next : Text} {index : Nat} {now : Number}
    (done : cancel params record index now = .ok next) :
    (state params record index now).isLive = true ∧
      Revised params.recordCapacity record (.operation index .state)
        (some (Text.decimal OperationState.unset.code)) [] next := by
  unfold cancel at done
  dsimp only at done
  split at done
  · rename_i live
    exact ⟨live, setState_eq_ok done⟩
  · cases done

theorem at?_fields {record : Text} {index : Nat} {operation : Operation}
    (found : at? record index = some operation) :
    operation.index = index ∧ operation.readyAt = word record index .ready ∧
      operation.storedState = storedState record index := by
  simp only [at?, Option.bind_eq_bind, Option.bind_eq_some_iff, Option.pure_def,
    Option.some.injEq] at found
  rcases found with ⟨_, -, _, -, rfl⟩
  exact ⟨rfl, rfl, rfl⟩

/-- An operation in the list is the one at its index. -/
theorem at?_of_listed {record : Text} {operation : Operation}
    (listed : operation ∈ list record) : at? record operation.index = some operation := by
  rcases List.mem_filterMap.mp listed with ⟨index, -, found⟩
  rwa [(at?_fields found).1]

theorem indexOf_eq_ofFound (record : Text) (id : Nat) :
    indexOf record id = .ofFound (.noOperationWithId id)
      ((List.range (count record)).find? fun index =>
        field? record index .id == some (Text.decimal id)) := by
  unfold indexOf
  cases List.find? _ (List.range (count record)) <;> rfl

theorem indexOfProposal_eq_ofFound (record : Text) (proposalId : Nat) :
    indexOfProposal record proposalId = .ofFound (.noOperationFor proposalId)
      ((List.range (count record)).reverse.find? fun index =>
        field? record index .proposal == some (Text.decimal proposalId)) := by
  unfold indexOfProposal
  cases List.find? _ (List.range (count record)).reverse <;> rfl

theorem indexOfProposal_eq_ok {record : Text} {proposalId index : Nat}
    (done : indexOfProposal record proposalId = .ok index) :
    index < count record ∧ field? record index .proposal = some (Text.decimal proposalId) ∧
      ∀ later, index < later → later < count record →
        field? record later .proposal ≠ some (Text.decimal proposalId) := by
  rw [indexOfProposal_eq_ofFound, Outcome.ofFound_eq_ok] at done
  rcases List.find?_eq_some_iff_append.mp done with ⟨matching, latest, oldest, split, skipped⟩
  have inRange : index ∈ (List.range (count record)).reverse := by simp [split]
  refine ⟨by simpa using inRange, by simpa using matching, ?_⟩
  intro later above below equal
  have descending : (List.range (count record)).reverse.Pairwise (· > ·) :=
    List.pairwise_reverse.mpr List.pairwise_lt_range
  have member : later ∈ (List.range (count record)).reverse := by simpa using below
  rw [split] at descending member
  have behind := List.pairwise_append.mp descending
  rcases List.mem_append.mp member with earlier | member
  · simpa [equal] using skipped later earlier
  · rcases List.mem_cons.mp member with same | older
    · omega
    · have less := (List.pairwise_cons.mp behind.2.1).1 later older
      omega

end Operations

end LedgerGovernance
