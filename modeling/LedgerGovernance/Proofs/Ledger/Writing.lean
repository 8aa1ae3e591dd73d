import LedgerGovernance.Proofs.Ledger.ActionEffects
import LedgerGovernance.Proofs.Record.Writing

/-! What the operations of the ledger write, on any record. No action but an execution
writes the lock, no action gives an operation a predecessor, and wherever a state is
written, it is a single digit; all of this holds of every entry, the shadowed ones
included. -/

namespace LedgerGovernance

open Record (Written)

namespace Key

/-- The keys under which the state of a proposal or of an operation stands. -/
def isState : Key → Bool
  | proposal _ .state | operation _ .state => true
  | _ => false

/-- What may be written at all: nothing as a predecessor, and a state as one digit. -/
def Admits (key : Key) (value : Text) : Prop :=
  (∀ index, key ≠ .operation index .predecessor) ∧
    (key.isState = true → Text.utf8Size value = 1)

end Key

/-- What an action may write that is no execution. -/
def Actions.Writes (key : Key) (value : Text) : Prop :=
  key ≠ .lock ∧ key.Admits value

variable {params : Params} {record next : Text}

theorem ProposalState.size_code (state : ProposalState) :
    Text.utf8Size (Text.decimal state.code) = 1 := by
  cases state <;> decide

theorem OperationState.size_code (state : OperationState) :
    Text.utf8Size (Text.decimal state.code) = 1 := by
  cases state <;> decide

/-! ## Single operations -/

theorem Members.Entered.written {account : Account} {entry : Text}
    (entered : Entered params record account entry next) :
    Written Actions.Writes params.recordCapacity record next := by
  cases entered with
  | replaced _ _ revised => exact revised.written ⟨nofun, nofun, nofun⟩ nofun
  | added _ _ revised =>
      refine revised.written ⟨nofun, nofun, nofun⟩ ?_
      simp [Actions.Writes, Key.Admits, Key.isState]

theorem Members.set_written {account : Account} {power : Int} {mask : Number}
    (done : set params record account power mask = .ok next) :
    Written Actions.Writes params.recordCapacity record next := by
  rcases set_eq_ok done with ⟨amount, roles, -, -, -, entered⟩
  exact entered.written

theorem Proposals.setState_written {index : Nat} {state : ProposalState}
    (done : setState params record index state.code = .ok next) :
    Written Actions.Writes params.recordCapacity record next :=
  (setState_eq_ok done).written ⟨nofun, nofun, fun _ => state.size_code⟩ nofun

theorem Operations.setState_written {index : Nat} {state : OperationState}
    (done : setState params record index state = .ok next) :
    Written Actions.Writes params.recordCapacity record next :=
  (setState_eq_ok done).written ⟨nofun, nofun, fun _ => state.size_code⟩ nofun

theorem Proposals.setLock_written {locked : Bool}
    (done : setLock params record locked = .ok next) :
    Written Key.Admits params.recordCapacity record next :=
  (setLock_eq_ok done).written ⟨nofun, nofun⟩

/-! ## Actions -/

/-- An action that is no execution leaves the record as it is, or writes what it may. -/
theorem Action.Effect.written {action : Action} {caller : Account} {now : Number}
    (effect : Action.Effect params record caller now action next)
    (plain : ∀ id, action ≠ .execute id) :
    next = record ∨ Written Actions.Writes params.recordCapacity record next := by
  cases effect with
  | registered => exact .inl rfl
  | entered _ entered => exact .inr entered.written
  | delegated delegated =>
      refine .inr ?_
      cases delegated with
      | withdrawn _ revised => exact revised.written ⟨nofun, nofun, nofun⟩ nofun
      | given _ put => exact put.written ⟨nofun, nofun, nofun⟩
  | snapshot taken =>
      cases taken with
      | before => exact .inl rfl
      | now _ _ put => exact .inr (put.written ⟨nofun, nofun, nofun⟩)
  | proposed opened =>
      refine .inr (opened.revised.written ⟨nofun, nofun, nofun⟩ ?_)
      simp [Proposals.opening, Proposals.newField, ProposalField.all, Actions.Writes, Key.Admits,
        Key.isState, ProposalState.size_code]
  | @voted _ _ _ _ choice _ _ _ counted =>
      refine .inr (counted.revised.written ?_ ?_)
      · cases choice <;> exact ⟨nofun, nofun, nofun⟩
      · simp [Actions.Writes, Key.Admits, Key.isState]
  | intended _ put => exact .inr (put.written ⟨nofun, nofun, nofun⟩)
  | canceled _ revised =>
      exact .inr (revised.written ⟨nofun, nofun, fun _ => ProposalState.size_code _⟩ nofun)
  | queued passed =>
      have scheduled : Written Actions.Writes _ _ _ :=
        passed.opened.revised.written ⟨nofun, nofun, nofun⟩ (by
          simp [Operations.opening, Operations.newField, OperationField.all, Actions.Writes,
            Key.Admits, Key.isState, OperationState.size_code])
      exact .inr (scheduled.trans
        (passed.marked.written ⟨nofun, nofun, fun _ => ProposalState.size_code _⟩ nofun))
  | executed => exact absurd rfl (plain _)

/-! ## Executions -/

namespace Execution

theorem setLock_of_start {locked : Text} {caller : Account}
    (done : start params record caller = .ok locked) :
    Proposals.setLock params record true = .ok locked := by
  rcases Outcome.bind_eq_ok.mp done with ⟨granted, -, locking⟩
  split at locking
  · cases locking
  · exact locking

theorem Completed.written {proposalId now : Number} {id index : Nat}
    {executed marked : Text}
    (completed : Completed params record proposalId now id index executed marked next) :
    Written Key.Admits params.recordCapacity record next := by
  have executing : Written Key.Admits _ _ _ :=
    completed.executing.written ⟨nofun, fun _ => OperationState.size_code _⟩ nofun
  have releasing : Written Key.Admits _ _ _ := completed.releasing.written ⟨nofun, nofun⟩
  cases completed.marking with
  | found _ revised =>
      have marking : Written Key.Admits _ _ _ :=
        revised.written ⟨nofun, fun _ => ProposalState.size_code _⟩ nofun
      exact (executing.trans marking).trans releasing
  | missing => exact executing.trans releasing

theorem complete_written {proposalId now : Number}
    (done : complete params record proposalId now = .ok next) :
    Written Key.Admits params.recordCapacity record next := by
  rcases complete_eq_ok done with ⟨id, index, executed, marked, completed⟩
  exact completed.written

end Execution

/-- Any action that has a result leaves the record as it is, or writes what may be written
at all. -/
theorem Action.Effect.admitted {action : Action} {caller : Account} {now : Number}
    (effect : Action.Effect params record caller now action next) :
    next = record ∨ Written Key.Admits params.recordCapacity record next := by
  by_cases executes : ∃ id, action = .execute id
  · rcases executes with ⟨id, rfl⟩
    cases effect with
    | entered entrant => cases entrant
    | executed locking completed =>
        have locked : Written Key.Admits _ _ _ := locking.written ⟨nofun, nofun⟩
        exact .inr (locked.trans completed.written)
  · exact (effect.written (not_exists.mp executes)).imp_right fun written =>
      written.mono fun _ _ writes => writes.2

/-! ## Tame records -/

/-- A record in which no operation has a predecessor and all states are single digits. -/
structure Record.Tame (record : Text) : Prop where
  alone : ∀ index, Record.read? record (.operation index .predecessor) = none
  digits : ∀ key : Key, key.isState = true →
    Record.AllUnder record key fun value => Text.utf8Size value = 1

namespace Record.Tame

theorem nil : Tame [] :=
  ⟨fun _ => rfl, fun key _ => Record.allUnder_nil key _⟩

theorem written {capacity : Nat} (tame : Tame record)
    (done : Written Key.Admits capacity record next) : Tame next where
  alone index := by
    rw [done.read?_eq fun value admits => admits.1 index rfl]
    exact tame.alone index
  digits key isState := done.allUnder (tame.digits key isState) fun _ admits => admits.2 isState

end Record.Tame

end LedgerGovernance
