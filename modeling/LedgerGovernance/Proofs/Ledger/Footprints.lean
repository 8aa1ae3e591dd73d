import LedgerGovernance.Proofs.Ledger.ActionEffects
import LedgerGovernance.Proofs.Record.Framing

/-! Where the operations of the ledger write, on any record. The keys are computed from the
record before anything is written; whatever else the record holds is left alone. -/

namespace LedgerGovernance

open Record (Spares)

/-! ## Footprints -/

/-- The keys that follow from a result. Where there is none, there are no keys. -/
def Outcome.keys {α : Type} (outcome : Outcome α) (keys : α → List Key) : List Key :=
  match outcome with
  | .ok value => keys value
  | .error _ => []

@[simp] theorem Outcome.keys_ok {α : Type} (value : α) (keys : α → List Key) :
    Outcome.keys (.ok value) keys = keys value := rfl

theorem Outcome.exists_of_mem_keys {α : Type} {outcome : Outcome α} {keys : α → List Key}
    {key : Key} (member : key ∈ outcome.keys keys) :
    ∃ value, outcome = .ok value ∧ key ∈ keys value := by
  cases outcome with
  | ok value => exact ⟨value, rfl, member⟩
  | error fault => cases member

/-- A member keeps its index; anyone else is counted and takes the next one. -/
def Members.footprint (record : Text) (account : Account) : List Key :=
  match find? record account with
  | some member => [.member member.index]
  | none => [.memberCount, .member (count record)]

/-- The counter, and all fields of the next proposal. -/
def Proposals.footprint (record : Text) : List Key :=
  .proposalCount :: ProposalField.all.map (.proposal (count record))

/-- The counter, and the fields of the next operation, which has no predecessor. -/
def Operations.footprint (record : Text) : List Key :=
  .operationCount :: [OperationField.id, .proposal, .ready, .state].map
    (.operation (count record))

/-- The lock, and the states of the operation and of the proposal, where there is one. -/
def Execution.footprint (record : Text) (id : Nat) : List Key :=
  .lock ::
    ((Operations.indexOfProposal record id).keys fun index => [.operation index .state]) ++
    (Proposals.indexOf record id).keys fun index => [.proposal index .state]

/-! ## Lookups by id

Where an execution writes is looked up again behind its first writes. It is found where it
was before them. -/

variable {params : Params} {record next : Text}

namespace Record.Spares

variable {keys : List Key}

theorem readCount_eq (spares : Spares keys record next) {key : Key} (unlisted : key ∉ keys) :
    readCount next key.text = readCount record key.text :=
  congrArg (fun value => (value.bind Text.readCount?).getD 0) (spares.read?_eq unlisted)

theorem indexOfProposal_eq (spares : Spares keys record next)
    (counter : .operationCount ∉ keys) (fields : ∀ index, .operation index .proposal ∉ keys)
    (id : Nat) :
    Operations.indexOfProposal next id = Operations.indexOfProposal record id := by
  have count : Operations.count next = Operations.count record := spares.readCount_eq counter
  have field (index : Nat) :
      Operations.field? next index .proposal = Operations.field? record index .proposal :=
    spares.read?_eq (fields index)
  simp only [Operations.indexOfProposal, count, field]

theorem indexOf_eq (spares : Spares keys record next)
    (counter : .proposalCount ∉ keys) (fields : ∀ index, .proposal index .id ∉ keys)
    (id : Nat) : Proposals.indexOf next id = Proposals.indexOf record id := by
  have count : Proposals.count next = Proposals.count record := spares.readCount_eq counter
  have field (index : Nat) :
      Proposals.field? next index .id = Proposals.field? record index .id :=
    spares.read?_eq (fields index)
  simp only [Proposals.indexOf, count, field]

end Record.Spares

/-! ## Operations -/

theorem Members.Entered.spares {account : Account} {entry : Text}
    (entered : Entered params record account entry next) :
    Spares (Members.footprint record account) record next := by
  cases entered with
  | replaced member found revised =>
      rw [Members.footprint, found]
      exact revised.spares List.mem_cons_self nofun
  | added missing room revised =>
      rw [Members.footprint, missing]
      exact revised.spares List.mem_cons_self (by simp)

theorem Delegations.Delegated.spares {voter target : Account}
    (delegated : Delegated params record voter target next) :
    Spares [.delegate voter] record next := by
  cases delegated with
  | withdrawn same revised => exact revised.spares List.mem_cons_self nofun
  | given different put => exact put.spares List.mem_cons_self

theorem Delegations.Taken.spares {id : Nat} {account : Account} {result : Snapshot}
    (taken : Taken params record id account result) :
    Spares [.snapshot id account] record result.record := by
  cases taken with
  | before => exact .refl _ _
  | now _ _ put => exact put.spares List.mem_cons_self

theorem Proposals.Opened.spares {proposer : Account} {description now : Number} {votes : Int}
    {proposed : Proposed} {voteStart voteEnd hash : Nat}
    (opened : Opened params record proposer description now votes proposed voteStart voteEnd
      hash) : Spares (Proposals.footprint record) record proposed.record := by
  refine opened.revised.spares List.mem_cons_self fun pair member => ?_
  rcases List.mem_cons.mp member with rfl | member
  · exact List.mem_cons_self
  · rcases List.mem_map.mp member with ⟨field, listed, rfl⟩
    exact List.mem_cons_of_mem _ (List.mem_map_of_mem listed)

theorem Operations.Opened.spares {proposalId now delay : Number} {scheduled : Scheduled}
    {id readyAt : Nat}
    (opened : Opened params record proposalId now delay none scheduled id readyAt) :
    Spares (Operations.footprint record) record scheduled.record := by
  refine opened.revised.spares List.mem_cons_self ?_
  simp [opening, newField, OperationField.all, Operations.footprint]

theorem Execution.Completed.spares {locked executed marked : Text} {proposalId now : Number}
    {id index : Nat} (locking : Spares [.lock] record locked)
    (completed : Completed params locked proposalId now id index executed marked next) :
    Spares (Execution.footprint record id) record next := by
  have operationEq : Operations.indexOfProposal record id = .ok index := by
    rw [← locking.indexOfProposal_eq (by simp) (by simp), completed.index_eq]
  have executing : Spares [.lock, .operation index .state] record executed :=
    (locking.mono (by simp)).trans (completed.executing.spares (by simp) nofun)
  have marking : Spares (Execution.footprint record id) record marked := by
    have before : Spares (Execution.footprint record id) record executed :=
      executing.mono (by simp [Execution.footprint, operationEq])
    cases completed.marking with
    | @found place _ indexEq revised =>
        rw [executing.indexOf_eq (by simp) (by simp)] at indexEq
        have marked : Spares (Execution.footprint record id) executed marked :=
          revised.spares (by simp [Execution.footprint, indexEq]) nofun
        exact before.trans marked
    | missing => exact before
  exact marking.trans (completed.releasing.spares List.mem_cons_self)

end LedgerGovernance
