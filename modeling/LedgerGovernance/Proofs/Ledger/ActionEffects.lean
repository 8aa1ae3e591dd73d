import LedgerGovernance.Proofs.Ledger.Effects

/-! What the actions that address a proposal have passed when they succeed, again for
any record: the proposal they found, the state it was in, and each text between the
record before and the record after. -/

namespace LedgerGovernance

open Record (Put Revised)

namespace Actions

/-- A number addresses a proposal if it is an id, and the first proposal with the id is
the one addressed. -/
theorem addressed_eq_ok {record : Text} {proposalId : Number} {index : Nat} :
    addressed record proposalId = .ok index ↔
      ∃ id : Nat, proposalId = (id : Number) ∧ id ≤ maxU32 ∧
        Proposals.indexOf record id = .ok index := by
  simp only [addressed, Outcome.bind_eq_ok, Number.u32_eq_ok, and_assoc]

theorem castVote_eq_ok {params : Params} {record next : Text} {caller : Account}
    {proposalId support now : Number}
    (done : castVote params record caller proposalId support now = .ok next) :
    ∃ index choice, addressed record proposalId = .ok index ∧
      VoteSupport.ofNumber? support = some choice ∧
      Ballots.Counted params record index caller choice
        (Delegations.effectiveVotes record caller) now (Members.totalPower record) next := by
  simp only [castVote, Outcome.bind_eq_ok] at done
  rcases done with ⟨index, indexEq, weight, weightEq, choice, choiceEq, done⟩
  simp only [Delegations.readEffectiveVotes, Outcome.bind_eq_ok, Outcome.pure_eq_ok] at weightEq
  rcases weightEq with ⟨-, -, rfl⟩
  rcases Ballots.cast_eq_ok done with ⟨amount, same, counted⟩
  cases Int.ofNat.inj same
  exact ⟨index, choice, indexEq, Ballots.judgeSupport_eq_ok.mp choiceEq, counted⟩

/-- What a queued proposal has passed: it was Succeeded, an operation was scheduled for
it with the least delay, and then it was marked. -/
structure Queued (params : Params) (record : Text) (proposalId now : Number)
    (id index readyAt : Nat) (scheduled : Operations.Scheduled) (next : Text) : Prop where
  proposalId_eq : proposalId = (id : Number)
  index_eq : Proposals.indexOf record id = .ok index
  succeeded :
    Proposals.state params record index now (Members.totalPower record) = .succeeded
  opened : Operations.Opened params record proposalId now (params.timelockMinDelay : Number)
    none scheduled id readyAt
  marked : Revised params.recordCapacity scheduled.record (.proposal index .state)
    (some (Text.decimal ProposalState.queued.code)) [] next

theorem queue_eq_ok {params : Params} {record : Text} {proposalId now : Number}
    {queued : Operations.Scheduled} (done : queue params record proposalId now = .ok queued) :
    ∃ id index readyAt scheduled,
      Queued params record proposalId now id index readyAt scheduled queued.record := by
  simp only [queue, Outcome.bind_eq_ok] at done
  rcases done with ⟨id, idEq, index, indexEq, done⟩
  split at done
  · cases done
  rename_i succeeded
  simp only [Outcome.bind_eq_ok, Outcome.pure_eq_ok] at done
  rcases done with ⟨scheduled, scheduling, next, marking, rfl⟩
  rcases Operations.schedule_eq_ok scheduling with
    ⟨scheduledId, readyAt, predecessor, none, -, opened⟩
  have idWord := Number.u32_eq_ok.mp idEq
  have same : scheduledId = id :=
    Except.ok.inj (opened.proposalId_eq.symm.trans idEq)
  cases predecessor with
  | some predecessor => cases none
  | none =>
      exact ⟨id, index, readyAt, scheduled, {
        proposalId_eq := idWord.1
        index_eq := indexEq
        succeeded := Decidable.not_not.mp succeeded
        opened := same ▸ opened
        marked := Proposals.setState_eq_ok marking }⟩

end Actions

namespace Execution

theorem start_eq_ok {params : Params} {record locked : Text} {caller : Account}
    (done : start params record caller = .ok locked) :
    Members.hasRole record caller Role.executor.bit = true ∧
      Proposals.isLocked record = false ∧
      Put params.recordCapacity record .lock ['1'] locked := by
  rcases Outcome.bind_eq_ok.mp done with ⟨granted, required, rest⟩
  refine ⟨Members.requireRole_eq_ok required, ?_⟩
  split at rest
  · cases rest
  · rename_i unlocked
    exact ⟨(Bool.not_eq_true _).mp unlocked, Proposals.setLock_eq_ok rest⟩

/-- The proposal is marked where there is one with the id. -/
inductive Marked (params : Params) (record : Text) (id : Nat) : Text → Prop
  | found {index : Nat} {next : Text} (index_eq : Proposals.indexOf record id = .ok index)
      (revised : Revised params.recordCapacity record (.proposal index .state)
        (some (Text.decimal ProposalState.executed.code)) [] next) :
      Marked params record id next
  | missing (fault : Fault) (index_eq : Proposals.indexOf record id = .error fault) :
      Marked params record id record

/-- What a completed execution has passed, with the texts that it has gone through. -/
structure Completed (params : Params) (locked : Text) (proposalId now : Number)
    (id index : Nat) (executed marked next : Text) : Prop where
  proposalId_eq : proposalId = (id : Number)
  index_eq : Operations.indexOfProposal locked id = .ok index
  ready : Operations.state params locked index now = .ready
  executing : Revised params.recordCapacity locked (.operation index .state)
    (some (Text.decimal OperationState.done.code)) [] executed
  marking : Marked params executed id marked
  releasing : Put params.recordCapacity marked .lock ['0'] next
  id_le : id ≤ maxU32

theorem complete_eq_ok {params : Params} {locked next : Text} {proposalId now : Number}
    (done : complete params locked proposalId now = .ok next) :
    ∃ id index executed marked,
      Completed params locked proposalId now id index executed marked next := by
  simp only [complete, Outcome.bind_eq_ok] at done
  rcases done with ⟨id, idEq, index, indexEq, executed, executing, marked, marking, releasing⟩
  rcases Operations.executeInOrder_eq_ok executing with ⟨-, ready, executing⟩
  refine ⟨id, index, executed, marked, {
    proposalId_eq := (Number.u32_eq_ok.mp idEq).1
    index_eq := indexEq
    ready
    executing
    marking := ?_
    releasing := Proposals.setLock_eq_ok releasing
    id_le := (Number.u32_eq_ok.mp idEq).2 }⟩
  unfold markExecuted at marking
  split at marking
  · rename_i proposalIndex found
    exact .found found (Proposals.setState_eq_ok marking)
  · rename_i fault missing
    cases marking
    exact .missing fault missing

end Execution

/-! ## Any action -/

/-- The account that an action enters as a member. -/
def Action.entrant? (caller : Account) : Action → Option Account
  | selfRegister => some caller
  | setVotingPower account _ | grantRole account _ | revokeRole account _ => some account
  | _ => none

/-- What an action that has a result does to a record, whatever the record is like. -/
inductive Action.Effect (params : Params) (record : Text) (caller : Account) (now : Number) :
    Action → Text → Prop
  | registered : Effect params record caller now .selfRegister record
  | entered {action : Action} {account : Account} {amount roles : Nat} {next : Text}
      (entrant : action.entrant? caller = some account)
      (entered : Members.Entered params record account
        (Members.entryText (Text.hex account) amount roles) next) :
      Effect params record caller now action next
  | delegated {target : Account} {next : Text}
      (delegated : Delegations.Delegated params record caller target next) :
      Effect params record caller now (.delegate target) next
  | snapshot {id : Nat} {account : Account} {result : Delegations.Snapshot}
      (taken : Delegations.Taken params record id account result) (fits : id ≤ maxU32) :
      Effect params record caller now (.snapshot (id : Number) account) result.record
  | proposed {description : Option Number} {hashed : Number} {votes : Int}
      {proposed : Proposals.Proposed} {voteStart voteEnd hash : Nat}
      (opened : Proposals.Opened params record caller hashed now votes proposed voteStart
        voteEnd hash) :
      Effect params record caller now (.propose description) proposed.record
  | voted {id support : Number} {index weight : Nat} {choice : VoteSupport} {total : Int}
      {next : Text} (addressed : Actions.addressed record id = .ok index)
      (counted : Ballots.Counted params record index caller choice weight now total next)
      (choice_eq : VoteSupport.ofNumber? support = some choice) :
      Effect params record caller now (.castVote id support) next
  | intended {id : Nat} {support : Number} {choice : VoteSupport} {next : Text}
      (unset : Record.read? record (.intent id caller) = none)
      (put : Put params.recordCapacity record (.intent id caller) (Text.decimal choice.code)
        next) (fits : id ≤ maxU32) :
      Effect params record caller now (.submitVoteIntent (id : Number) support) next
  | canceled {id : Number} {index : Nat} {next : Text}
      (addressed : Actions.addressed record id = .ok index)
      (revised : Revised params.recordCapacity record (.proposal index .state)
        (some (Text.decimal ProposalState.canceled.code)) [] next) :
      Effect params record caller now (.cancel id) next
  | queued {proposalId : Number} {id index readyAt : Nat} {scheduled : Operations.Scheduled}
      {next : Text}
      (passed : Actions.Queued params record proposalId now id index readyAt scheduled next) :
      Effect params record caller now (.queue proposalId) next
  | executed {proposalId : Number} {id index : Nat} {locked executed marked next : Text}
      (locking : Put params.recordCapacity record .lock ['1'] locked)
      (completed : Execution.Completed params locked proposalId now id index executed marked
        next) :
      Effect params record caller now (.execute proposalId) next

theorem Action.effect_of_apply {params : Params} {record : Text} {caller : Account}
    {now : Number} {action : Action} {receipt : Receipt}
    (done : action.apply params record caller now = .ok receipt) :
    Action.Effect params record caller now action receipt.record := by
  have entered {action : Action} {account : Account} {power : Int} {mask : Number}
      {next : Text} (entrant : action.entrant? caller = some account)
      (writing : Members.set params record account power mask = .ok next) :
      Action.Effect params record caller now action next := by
    rcases Members.set_eq_ok writing with ⟨amount, roles, -, -, -, entered⟩
    exact .entered entrant entered
  cases action with
  | selfRegister =>
      rcases Outcome.bind_eq_ok.mp done with ⟨next, registering, result⟩
      cases result
      unfold Actions.selfRegister at registering
      split at registering
      · cases registering
        exact .registered
      · exact entered rfl registering
  | setVotingPower account _ | grantRole account _ | revokeRole account _ =>
      rcases Outcome.bind_eq_ok.mp done with ⟨next, writing, result⟩
      cases result
      rcases Outcome.bind_eq_ok.mp writing with ⟨granted, -, writing⟩
      exact entered rfl writing
  | delegate target =>
      rcases Outcome.bind_eq_ok.mp done with ⟨next, delegating, result⟩
      cases result
      exact .delegated (Delegations.delegate_eq_ok delegating).2.2
  | snapshot proposalId account =>
      rcases Outcome.bind_eq_ok.mp done with ⟨taken, taking, result⟩
      cases result
      rcases Outcome.bind_eq_ok.mp taking with ⟨index, -, taking⟩
      rcases Delegations.snapshot_eq_ok taking with ⟨-, id, idEq, taken⟩
      rcases Number.u32_eq_ok.mp idEq with ⟨rfl, fits⟩
      exact .snapshot taken fits
  | propose description =>
      rcases Outcome.bind_eq_ok.mp done with ⟨proposed, proposing, result⟩
      cases result
      rcases Outcome.bind_eq_ok.mp proposing with ⟨votes, -, proposing⟩
      rcases Proposals.propose_eq_ok proposing with ⟨voteStart, voteEnd, hash, opened⟩
      exact .proposed opened
  | castVote proposalId support =>
      rcases Outcome.bind_eq_ok.mp done with ⟨next, casting, result⟩
      cases result
      rcases Actions.castVote_eq_ok casting with ⟨index, choice, addressed, choiceEq, counted⟩
      exact .voted addressed counted choiceEq
  | submitVoteIntent proposalId support =>
      rcases Outcome.bind_eq_ok.mp done with ⟨next, submitting, result⟩
      cases result
      rcases Outcome.bind_eq_ok.mp submitting with ⟨index, -, submitting⟩
      rcases Intents.submit_eq_ok submitting with ⟨id, choice, idEq, -, -, unset, put⟩
      rcases Number.u32_eq_ok.mp idEq with ⟨rfl, fits⟩
      exact .intended unset put fits
  | cancel proposalId =>
      rcases Outcome.bind_eq_ok.mp done with ⟨next, canceling, result⟩
      cases result
      rcases Outcome.bind_eq_ok.mp canceling with ⟨index, addressed, canceling⟩
      exact .canceled addressed (Proposals.cancel_eq_ok canceling).2.2
  | queue proposalId =>
      rcases Outcome.bind_eq_ok.mp done with ⟨queued, queuing, result⟩
      cases result
      rcases Actions.queue_eq_ok queuing with ⟨id, index, readyAt, scheduled, passed⟩
      exact .queued passed
  | execute proposalId =>
      rcases Outcome.bind_eq_ok.mp done with ⟨next, executing, result⟩
      cases result
      rcases Outcome.bind_eq_ok.mp executing with ⟨locked, starting, completing⟩
      rcases Execution.complete_eq_ok completing with ⟨id, index, executed, marked, completed⟩
      exact .executed (Execution.start_eq_ok starting).2.2 completed

end LedgerGovernance
