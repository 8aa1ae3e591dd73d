import LedgerGovernance.Service
import LedgerGovernance.Proofs.Dispatch.Executions
import LedgerGovernance.Proofs.Dispatch.Memory
import LedgerGovernance.Proofs.Ledger.ReadBack
import LedgerGovernance.Proofs.WellFormedness

/-! A request that fails has changed nothing. A service writes a change first and reads back
what it has changed afterwards, so it might answer with an error although the change took
effect. On the records that requests lead to this never happens: whatever was written is
found. -/

namespace LedgerGovernance

namespace Service

variable {σ : Type} (service : Service σ)

/-! ## Changes -/

/-- What a change answers. -/
inductive Answer where
  | member (view : MemberView)
  | proposal (view : ProposalView)
  | power (votes : Nat)
  | done
deriving DecidableEq, Repr

/-- The change that an action stands for, requested by a caller. -/
def change (caller : Account) : Action → Call σ Answer
  | .selfRegister => .member <$> service.selfRegister caller
  | .setVotingPower account power => .member <$> service.setVotingPower caller account power
  | .grantRole account role => .member <$> service.grantRole caller account role
  | .revokeRole account role => .member <$> service.revokeRole caller account role
  | .delegate target => (fun _ => .done) <$> service.delegate caller target
  | .propose description => .proposal <$> service.propose caller description
  | .castVote proposalId support => .proposal <$> service.castVote caller proposalId support
  | .submitVoteIntent proposalId support =>
      (fun _ => .done) <$> service.submitVoteIntent caller proposalId support
  | .snapshot proposalId account => .power <$> service.snapshot caller proposalId account
  | .cancel proposalId => .proposal <$> service.cancel caller proposalId
  | .queue proposalId => .proposal <$> service.queue caller proposalId
  | .execute proposalId => .proposal <$> service.execute caller proposalId

/-- What is read back once an action was dispatched. -/
def readBack (caller : Account) (action : Action) (receipt : Receipt) : Call σ Answer :=
  match action with
  | .selfRegister => .member <$> service.member caller
  | .setVotingPower account _ | .grantRole account _ | .revokeRole account _ =>
      .member <$> service.member account
  | .delegate _ | .submitVoteIntent .. => return .done
  | .snapshot .. => return .power (receipt.votingPower.getD 0)
  | .propose _ =>
      match receipt.proposalId with
      | some id => .proposal <$> service.proposal id
      | none => Call.refuse .noProposalReceipt
  | .castVote proposalId _ | .cancel proposalId | .queue proposalId | .execute proposalId =>
      .proposal <$> service.proposal proposalId

theorem change_eq (caller : Account) (action : Action) :
    service.change caller action = (do
      let receipt ← service.dispatch caller action
      service.readBack caller action receipt) := by
  cases action with
  | propose description =>
      simp only [change, propose, readBack, map_bind]
      refine bind_congr fun receipt => ?_
      cases receipt.proposalId <;> rfl
  | _ => simp [change, readBack, selfRegister, setVotingPower, grantRole, revokeRole, delegate,
      castVote, submitVoteIntent, snapshot, cancel, queue, execute]

/-! ## Requests -/

/-- What can be asked of a service. -/
inductive Request where
  | change (caller : Account) (action : Action)
  | record
  | members
  | member (account : Account)
  | proposals
  | proposal (id : Number)
  | operation (id : Number)

/-- A request, done for what it does to the host. -/
def perform : Request → Call σ Unit
  | .change caller action => do let _ ← service.change caller action
  | .record => do let _ ← service.record
  | .members => do let _ ← service.members
  | .member account => do let _ ← service.member? account
  | .proposals => do let _ ← service.proposals
  | .proposal id => do let _ ← service.proposal id
  | .operation id => do let _ ← service.operation id

end Service

/-! ## Services on a host in memory -/

namespace MemoryHost

def service (params : Params) : Service MemoryHost where
  host
  params

/-- The host once the service was opened, with an admin if one is named. -/
def opened (params : Params) (memory : MemoryHost) : Option Account → MemoryHost
  | none => memory
  | some admin => (((service params).seedAdmin admin).on memory).2

/-- The host behind a request that comes in at a time. -/
def serve (params : Params) (memory : MemoryHost) (timed : Number × Service.Request) :
    MemoryHost :=
  (((service params).perform timed.2).on { memory with now := timed.1 }).2

/-- The host behind some requests, each at a time of its own. -/
def served (params : Params) (memory : MemoryHost)
    (requests : List (Number × Service.Request)) : MemoryHost :=
  requests.foldl (serve params) memory

variable {params : Params} (memory : MemoryHost)

theorem dispatch_on (caller : Account) (action : Action) :
    ((service params).dispatch caller action).on memory =
      let outcome := memory.outcome params (some caller) action
      (outcome.mapError .fault, memory.after outcome) := by
  rw [Service.dispatch]
  dsimp only
  rw [Dispatcher.dispatch_on_of_quiet fun _ _ => rfl,
    Dispatcher.run_on_memory (MemoryHost.inMemory.forCaller caller) memory (.inl rfl)]
  rfl

theorem member_on_of_found {account : Account}
    (found : (Members.find? memory.record account).isSome = true) :
    ∃ view, ((service params).member account).on memory = (.ok view, memory) := by
  have listed : ((Views.members memory.record).find?
      fun view : MemberView => view.member.account == account).isSome = true := by
    rw [Views.members, List.find?_map, Option.isSome_map]
    exact found
  rcases Option.isSome_iff_exists.mp listed with ⟨view, viewEq⟩
  have read : ((service params).member? account).on memory = (.ok (some view), memory) :=
    congrArg (fun view => (Except.ok view, memory)) viewEq
  refine ⟨view, ?_⟩
  rw [Service.member, Call.on_bind, read]
  rfl

theorem proposal_on (id : Number) :
    ((service params).proposal id).on memory =
      ((Views.describeProposal params memory.record id memory.now).mapError .fault, memory) := by
  change (Call.ofOutcome (Views.describeProposal params memory.record id memory.now)).on memory =
    _
  cases Views.describeProposal params memory.record id memory.now <;> rfl

/-- On a record that has grown under the parameters, a change that was written is read
back. -/
theorem readBack_on (grown : Grown params memory.record) {caller : Account} {action : Action}
    {receipt : Receipt} (done : memory.outcome params (some caller) action = .ok receipt) :
    ∃ answer, ((service params).readBack caller action receipt).on
      (memory.withRecord receipt.record) = (.ok answer, memory.withRecord receipt.record) := by
  rcases grown.kept with ⟨ledger, kept⟩
  have holds := kept.holds
  rcases outcome_eq_ok.mp done with ⟨account, now, sameCaller, -, applied⟩
  cases sameCaller
  have member {account : Account} (entrant : action.entrant? caller = some account) :
      ∃ answer, (Service.Answer.member <$> (service params).member account).on
        (memory.withRecord receipt.record) = (.ok answer, memory.withRecord receipt.record) := by
    rcases member_on_of_found (memory.withRecord receipt.record)
      (holds.entrant_found applied entrant) with ⟨view, read⟩
    exact ⟨.member view, Call.on_map_of_ok _ read⟩
  have proposal {id : Number} {view : ProposalView}
      (described : Views.describeProposal params receipt.record id memory.now = .ok view) :
      ∃ answer, (Service.Answer.proposal <$> (service params).proposal id).on
        (memory.withRecord receipt.record) = (.ok answer, memory.withRecord receipt.record) := by
    refine ⟨.proposal view, Call.on_map_of_ok _ ?_⟩
    rw [proposal_on]
    change (Except.mapError _ (Views.describeProposal params receipt.record id memory.now), _) = _
    rw [described]
    rfl
  cases action with
  | selfRegister | setVotingPower | grantRole | revokeRole => exact member rfl
  | delegate | submitVoteIntent | snapshot => exact ⟨_, rfl⟩
  | propose description =>
      rcases holds.proposed_described applied memory.now with ⟨id, view, idEq, described⟩
      rw [Service.readBack, idEq]
      exact proposal described
  | castVote | cancel | queue | execute =>
      rcases holds.subject_described kept.coherent applied rfl memory.now with ⟨view, described⟩
      exact proposal described

theorem change_on (grown : Grown params memory.record) (caller : Account) (action : Action) :
    (∃ fault, memory.outcome params (some caller) action = .error fault ∧
        ((service params).change caller action).on memory = (.error (.fault fault), memory)) ∨
      ∃ receipt answer, memory.outcome params (some caller) action = .ok receipt ∧
        ((service params).change caller action).on memory =
          (.ok answer, memory.withRecord receipt.record) := by
  rw [Service.change_eq, Call.on_bind, dispatch_on]
  cases done : memory.outcome params (some caller) action with
  | error fault => exact .inl ⟨fault, rfl, rfl⟩
  | ok receipt =>
      rcases readBack_on memory grown done with ⟨answer, read⟩
      exact .inr ⟨receipt, answer, rfl, read⟩

/-! ## Records that requests lead to -/

theorem grown_opened {memory : MemoryHost} (grown : Grown params memory.record)
    (admin : Option Account) : Grown params (memory.opened params admin).record := by
  cases admin with
  | none => exact grown
  | some admin =>
      rw [opened, Service.seedAdmin]
      change Grown params ((ite _ _ _ : Call MemoryHost Unit).on memory).2.record
      split
      · exact grown
      · cases seeding : Members.set (service params).params memory.record admin
            (Members.votes memory.record admin)
            (Members.roles memory.record admin ||| Service.everyRole : Nat) with
        | error fault => exact grown
        | ok seeded => exact grown.entered seeding

theorem perform_on (grown : Grown params memory.record) (request : Service.Request) :
    (((service params).perform request).on memory).2 = memory ∨
      ∃ caller action receipt, memory.outcome params (some caller) action = .ok receipt ∧
        (((service params).perform request).on memory).2 = memory.withRecord receipt.record := by
  cases request with
  | change caller action =>
      rw [Service.perform, Call.on_bind]
      rcases change_on memory grown caller action with
        ⟨fault, -, failed⟩ | ⟨receipt, answer, done, changed⟩
      · rw [failed]
        exact .inl rfl
      · rw [changed]
        exact .inr ⟨caller, action, receipt, done, rfl⟩
  | proposal id =>
      left
      rw [Service.perform, Call.on_bind, proposal_on]
      cases Views.describeProposal params memory.record id memory.now <;> rfl
  | operation id =>
      left
      have read : ((service params).operation id).on memory =
          (Call.ofOutcome (Views.describeOperation params memory.record id memory.now)).on
            memory := rfl
      rw [Service.perform, Call.on_bind, read]
      cases Views.describeOperation params memory.record id memory.now <;> rfl
  | record | members | member | proposals => exact .inl rfl

theorem grown_serve {memory : MemoryHost} (grown : Grown params memory.record)
    (timed : Number × Service.Request) : Grown params (memory.serve params timed).record := by
  have before : Grown params ({ memory with now := timed.1 } : MemoryHost).record := grown
  rw [serve]
  rcases perform_on { memory with now := timed.1 } before timed.2 with
    same | ⟨caller, action, receipt, done, changed⟩
  · rw [same]
    exact before
  · rw [changed]
    rcases outcome_eq_ok.mp done with ⟨account, now, -, -, applied⟩
    have made : ({ caller := account, now, action } : Move).outcome params memory.record =
        .ok receipt := applied
    have moved := grown.moved { caller := account, now, action }
    rw [Move.next_eq made] at moved
    exact moved

theorem grown_served {memory : MemoryHost} (grown : Grown params memory.record)
    (requests : List (Number × Service.Request)) :
    Grown params (memory.served params requests).record := by
  induction requests generalizing memory with
  | nil => exact grown
  | cons timed requests induction => exact induction (grown_serve grown timed)

/-- Whenever a change ends with an error, the host is as it was before; and a change that
was dispatched has an answer. -/
theorem failed_change_keeps_host (params : Params) (admin who : Option Account)
    (opening now : Number) (requests : List (Number × Service.Request)) (caller : Account)
    (action : Action) :
    let start : MemoryHost := { record := [], caller := who, now := opening }
    let memory := { (start.opened params admin).served params requests with now }
    let dispatched := ((service params).dispatch caller action).on memory
    let changed := ((service params).change caller action).on memory
    (∀ interruption, changed.1 = .error interruption → changed.2 = memory) ∧
      (∀ receipt, dispatched.1 = .ok receipt →
        ∃ answer, changed = (.ok answer, memory.withRecord receipt.record)) := by
  intro start memory dispatched changed
  have opened : Grown params (start.opened params admin).record := grown_opened .empty admin
  have grown : Grown params memory.record := grown_served opened requests
  have dispatchedEq : dispatched.1 =
      (memory.outcome params (some caller) action).mapError .fault :=
    congrArg Prod.fst (dispatch_on memory caller action)
  rcases change_on memory grown caller action with
    ⟨fault, failed, changedEq⟩ | ⟨receipt, answer, done, changedEq⟩
  · refine ⟨fun _ _ => congrArg Prod.snd changedEq, fun receipt answered => ?_⟩
    rw [dispatchedEq, failed] at answered
    cases answered
  · refine ⟨fun interruption ended => ?_, fun other answered => ⟨answer, ?_⟩⟩
    · cases (congrArg Prod.fst changedEq).symm.trans ended
    · rw [dispatchedEq, done] at answered
      cases answered
      exact changedEq

end MemoryHost

end LedgerGovernance
