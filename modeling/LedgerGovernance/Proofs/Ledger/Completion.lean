import LedgerGovernance.Proofs.Ledger.Lock
import LedgerGovernance.Proofs.Ledger.Steps

/-! An execution that may be completed is completed. The operation is found, nothing has
to be Done before it, and each of the three entries that are rewritten at the end gets one
digit in place of another: a record that was full to the last byte is as full afterwards. -/

namespace LedgerGovernance

variable {params : Params} {record : Text}

/-! ## Writing over a state -/

/-- A state that is there can be written over by another one. -/
private theorem exists_rewritten {key : Key} {value : Text} {failure : Failure}
    (encoded : Record.Encoded params.recordCapacity record) (tame : Record.Tame record)
    (isState : key.isState = true) (present : (Record.read? record key).isSome = true)
    (plain : value.all Entry.isPlain = true) (digit : Text.utf8Size value = 1) :
    ∃ next, (do
      match ← (Draft.ofRecord record).replace? key.text value with
      | some draft => draft.encode params.recordCapacity
      | none => Outcome.refuse failure : Outcome Text) = .ok next := by
  have same := (tame.digits key isState).mono fun old one => one.trans digit.symm
  rw [Record.replace?_of_present present plain]
  exact ⟨_, encoded.encode_overwrite same⟩

theorem Proposals.exists_setState (encoded : Record.Encoded params.recordCapacity record)
    (tame : Record.Tame record) {index : Nat}
    (present : (field? record index .state).isSome = true) (state : ProposalState) :
    ∃ next, setState params record index state.code = .ok next :=
  exists_rewritten encoded tame rfl present (Text.decimal_plain _) state.size_code

theorem Operations.exists_setState (encoded : Record.Encoded params.recordCapacity record)
    (tame : Record.Tame record) {index : Nat}
    (present : (field? record index .state).isSome = true) (state : OperationState) :
    ∃ next, setState params record index state = .ok next :=
  exists_rewritten encoded tame rfl present (Text.decimal_plain _) state.size_code

/-! ## Completing -/

theorem Record.Tame.predecessor_eq (tame : Record.Tame record) (index : Nat) :
    Operations.predecessor record index = 0 := by
  rw [Operations.predecessor, Operations.word, Operations.field?, tame.alone]
  rfl

namespace Represents

variable {ledger : Ledger} {place : Nat} {booking : Booking}
  (holds : Represents record ledger) (coherent : ledger.Coherent)
  (placed : ledger.bookings[place]? = some booking)

include holds coherent placed

/-- Each operation is found by its proposal. -/
theorem indexOfProposal_of_placed :
    Operations.indexOfProposal record booking.proposalId = .ok place := by
  refine holds.indexOfProposal_of_last coherent.bookings_le placed fun later other behind
    otherPlaced same => ?_
  exact absurd (coherent.eq_of_placed otherPlaced placed same) (Nat.ne_of_gt behind)

/-- A Ready operation on a record under the lock is completed, whatever else the record
holds. -/
theorem exists_complete (held : Execution.Held params record) (tame : Record.Tame record)
    {now : Number} (ready : booking.stateAt params now = .ready) :
    ∃ final, Execution.complete params record (booking.proposalId : Number) now =
      .ok final := by
  rcases coherent.booked booking (List.mem_of_getElem? placed) with
    ⟨index, motion, indexEq, found, -⟩
  have checking : Operations.checkExecutable params record place now = .ok () := by
    have isReady := (holds.operationStateAt_eq placed params now).trans ready
    unfold Operations.checkExecutable Operations.requireReady
    simp [tame.predecessor_eq, isReady]
  -- The operation, the proposal and the lock are written over in turn; what allows each of
  -- these holds of the record behind the one before.
  obtain ⟨executed, executing⟩ : ∃ executed,
      Operations.setState params record place .done = .ok executed := by
    apply Operations.exists_setState held.encoded tame
    rw [holds.operationText_eq placed]
    rfl
  have executedHolds := holds.setOperationState placed
    (Operations.setState_eq_ok executing).read?_eq_update
  have executedWritten := Operations.setState_written executing
  have executedHeld := held.written executedWritten fun _ writes => writes.1 rfl
  have executedTame := tame.written (executedWritten.mono fun _ _ writes => writes.2)
  obtain ⟨marked, marking⟩ : ∃ marked,
      Proposals.setState params executed index ProposalState.executed.code = .ok marked := by
    apply Proposals.exists_setState executedHeld.encoded executedTame
    rw [executedHolds.proposalText_eq found]
    rfl
  have markedHeld := executedHeld.written (Proposals.setState_written marking) fun _ writes =>
    writes.1 rfl
  have finding : Proposals.indexOf executed booking.proposalId = .ok index :=
    executedHolds.indexOf_eq_ok.mpr indexEq
  obtain ⟨final, releasing⟩ : ∃ final, Execution.releaseLock params marked = .ok final :=
    ⟨_, markedHeld.releaseLock_eq⟩
  refine ⟨final, ?_⟩
  unfold Execution.complete Operations.executeInOrder Execution.markExecuted
  rw [Number.u32_eq_ok.mpr ⟨rfl, booking.proposalId_le⟩]
  simp only [Outcome.bind_eq_ok]
  refine ⟨_, rfl, place, holds.indexOfProposal_of_placed coherent placed, executed,
    ⟨(), checking, executing⟩, marked, ?_, releasing⟩
  rw [finding]
  exact marking

end Represents

end LedgerGovernance
