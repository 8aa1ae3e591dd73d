import LedgerGovernance.Proofs.Ledger.ActionEffects
import LedgerGovernance.Proofs.Ledger.Coherence
import LedgerGovernance.Proofs.Record.Neatness

/-! Every operation keeps a neat record neat. What is appended goes under the next index of
its family, or under a key that was looked up and not found; that nothing is there already
follows from the ledger that the record represents. -/

namespace LedgerGovernance

open Record (Neat)

/-! ## Keys of new entries -/

theorem Proposals.nodup_opening (index : Nat) (value : ProposalField → Text) :
    ((opening index value).map Prod.fst).Nodup := by
  simp [opening, ProposalField.all]

theorem Proposals.mem_opening {index : Nat} {value : ProposalField → Text} {pair : Key × Text}
    (member : pair ∈ opening index value) :
    pair.1 = .proposalCount ∨ ∃ field, pair.1 = .proposal index field := by
  rcases List.mem_cons.mp member with rfl | member
  · exact .inl rfl
  · rcases List.mem_map.mp member with ⟨field, -, rfl⟩
    exact .inr ⟨field, rfl⟩

theorem Operations.nodup_opening (index id proposalId readyAt : Nat) :
    ((opening index (newField id proposalId readyAt none)).map Prod.fst).Nodup := by
  simp [opening, newField, OperationField.all]

theorem Operations.mem_opening {index : Nat} {value : OperationField → Option Text}
    {pair : Key × Text} (member : pair ∈ opening index value) :
    pair.1 = .operationCount ∨ ∃ field, pair.1 = .operation index field := by
  rcases List.mem_cons.mp member with rfl | member
  · exact .inl rfl
  · rcases List.mem_filterMap.mp member with ⟨field, -, written⟩
    rcases Option.map_eq_some_iff.mp written with ⟨text, -, rfl⟩
    exact .inr ⟨field, rfl⟩

/-! ## Operations -/

namespace Represents

variable {params : Params} {record next : Text} {ledger : Ledger}
  (holds : Represents record ledger) (neat : Neat record)

include holds neat

theorem neat_of_entered {account : Account} {entry : Text}
    (entered : Members.Entered params record account entry next) : Neat next := by
  cases entered with
  | replaced _ _ revised => exact revised.neat neat List.nodup_nil nofun
  | added _ _ revised =>
      refine revised.neat neat (by simp) fun pair member => ?_
      rcases List.mem_cons.mp member with rfl | member
      · exact .inl ⟨rfl, rfl⟩
      · rw [List.mem_singleton.mp member, holds.read?_eq, holds.memberCount_eq]
        exact .inr (by simp [Ledger.contents])

theorem neat_of_opened {proposer : Account} {description now : Number} {votes : Int}
    {proposed : Proposals.Proposed} {voteStart voteEnd hash : Nat}
    (opened : Proposals.Opened params record proposer description now votes proposed voteStart
      voteEnd hash) : Neat proposed.record := by
  refine opened.revised.neat neat (Proposals.nodup_opening _ _) fun pair member => ?_
  rcases Proposals.mem_opening member with counter | ⟨field, key⟩
  · exact .inl ⟨counter, rfl⟩
  · rw [key, holds.read?_eq, holds.proposalCount_eq]
    exact .inr (by simp [Ledger.contents])

theorem neat_of_counted {index weight : Nat} {voter : Account} {support : VoteSupport}
    {now : Number} {total : Int} {motion : Motion}
    (found : ledger.motions[index]? = some motion)
    (counted : Ballots.Counted params record index voter support weight now total next) :
    Neat next := by
  refine counted.revised.neat neat (by simp) fun pair member => ?_
  rw [List.mem_singleton.mp member, holds.read?_eq, holds.voteCount_eq found]
  exact .inr (by simp [Ledger.contents, found])

theorem neat_of_scheduled (coherent : ledger.Coherent) {proposalId now delay : Number}
    {scheduled : Operations.Scheduled} {id readyAt : Nat}
    (opened : Operations.Opened params record proposalId now delay none scheduled id readyAt) :
    Neat scheduled.record := by
  refine opened.revised.neat neat (Operations.nodup_opening _ _ _ _) fun pair member => ?_
  rcases Operations.mem_opening member with counter | ⟨field, key⟩
  · exact .inl ⟨counter, rfl⟩
  · rw [key, holds.read?_eq, holds.operationCount_eq coherent.bookings_le]
    exact .inr (by simp [Ledger.contents])

/-- Every action that has a result leaves a neat record neat. -/
theorem neat_of_effect (coherent : ledger.Coherent) {caller : Account} {now : Number}
    {action : Action} (effect : Action.Effect params record caller now action next) :
    Neat next := by
  cases effect with
  | registered => exact neat
  | entered _ entered => exact holds.neat_of_entered neat entered
  | delegated delegated =>
      cases delegated with
      | withdrawn _ revised => exact revised.neat neat List.nodup_nil nofun
      | given _ put => exact put.neat neat
  | snapshot taken =>
      cases taken with
      | before => exact neat
      | now _ _ put => exact put.neat neat
  | proposed opened => exact holds.neat_of_opened neat opened
  | voted addressed counted =>
      rcases Actions.addressed_eq_ok.mp addressed with ⟨id, -, -, indexEq⟩
      rcases Ledger.indexOf_eq_some (holds.indexOf_eq_ok.mp indexEq) with ⟨motion, found, -⟩
      exact holds.neat_of_counted neat found counted
  | intended _ put => exact put.neat neat
  | canceled _ revised => exact revised.neat neat List.nodup_nil nofun
  | queued passed =>
      have scheduled := holds.neat_of_scheduled neat coherent passed.opened
      exact passed.marked.neat scheduled List.nodup_nil nofun
  | executed locking completed =>
      have executed := completed.executing.neat (locking.neat neat) List.nodup_nil nofun
      cases completed.marking with
      | found _ marking =>
          exact completed.releasing.neat (marking.neat executed List.nodup_nil nofun)
      | missing => exact completed.releasing.neat executed

end Represents

end LedgerGovernance
