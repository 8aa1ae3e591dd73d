import LedgerGovernance.Proofs.ExecutionSafety
import LedgerGovernance.Proofs.Ledger.Completion
import LedgerGovernance.Proofs.Nesting.Turns

/-! A side effect that ran is on record. Between the check that lets a hook run and the
completion behind it, the hook may dispatch whatever it likes; none of this reaches the
operation that is being executed, so once the hook returns, the execution is completed on
the record that the last of its dispatches has left. -/

namespace LedgerGovernance

/-! ## Records that turns lead to -/

/-- A record of a coherent ledger whose entries, read or shadowed, are tame. -/
structure Sound (record : Text) : Prop where
  represented : ∃ ledger, Represents record ledger ∧ ledger.Coherent
  tame : Record.Tame record

theorem Seeded.sound {record : Text} (seeded : Seeded record) : Sound record := by
  refine ⟨?_, ?_⟩
  · rcases seeded.represented with ⟨ledger, holds, coherent, -⟩
    exact ⟨ledger, holds, coherent⟩
  · induction seeded with
    | empty => exact .nil
    | entered _ done tame =>
        exact tame.written ((Members.set_written done).mono fun _ _ writes => writes.2)

namespace Sound

variable {params : Params} {record final : Text} (sound : Sound record)

include sound

theorem setLock {locked : Bool} (done : Proposals.setLock params record locked = .ok final) :
    Sound final := by
  rcases sound.represented with ⟨ledger, holds, coherent⟩
  exact ⟨⟨_, holds.setLock locked (Proposals.setLock_eq_ok done).read?_eq,
    coherent.booked_nodup, coherent.booked⟩, sound.tame.written (Proposals.setLock_written done)⟩

theorem start {caller : Account} (done : Execution.start params record caller = .ok final) :
    Sound final :=
  sound.setLock (Execution.setLock_of_start done)

theorem complete {proposalId now : Number}
    (done : Execution.complete params record proposalId now = .ok final) : Sound final := by
  rcases sound.represented with ⟨ledger, holds, coherent⟩
  rcases holds.complete coherent done with
    ⟨index, place, motion, booking, -, addressed, found, placed, -, nextHolds, -⟩
  have executed := coherent.execute addressed found placed
  exact ⟨⟨_, nextHolds, executed.booked_nodup, executed.booked⟩,
    sound.tame.written (Execution.complete_written done)⟩

theorem next (params : Params) (move : Move) : Sound (move.next params record) := by
  rcases move.next_cases params record with
    ⟨id, locked, -, starting, completing⟩ | same | written
  · exact (sound.start starting).complete completing
  · rw [same]
    exact sound
  · refine ⟨?_, sound.tame.written (written.mono fun _ _ writes => writes.2)⟩
    rcases sound.represented with ⟨ledger, holds, coherent⟩
    rcases holds.next coherent move with ⟨-, -, same⟩ | ⟨-, after, -, afterHolds, kept, -⟩
    · rw [same]
      exact ⟨ledger, holds, coherent⟩
    · exact ⟨after, afterHolds, kept⟩

end Sound

theorem Follows.sound {params : Params} {record : Text} {dispatches : List NestedDispatch}
    (follows : Follows params record dispatches) (sound : Sound record) :
    Sound (NestedDispatch.left record dispatches) :=
  (follows.keeps sound fun _ move _ _ sound => sound.next params move).2

theorem Turn.sound {params : Params} {memory : MemoryHost} (sound : Sound memory.record)
    (turn : Turn) : Sound (turn.play params memory).2.memory.record := by
  have plays := turn.plays params memory
  generalize (turn.play params memory).1 = result at plays
  generalize (turn.play params memory).2.memory.record = record at plays ⊢
  generalize (turn.play params memory).2.runs = runs at plays
  cases plays with
  | plain => exact sound.next params turn.move
  | refused => exact sound
  | failed entered _ releasing => exact (sound.start entered.started).setLock releasing
  | completed entered _ completing =>
      exact (entered.follows.sound (sound.start entered.started)).complete completing
  | incomplete entered _ _ releasing =>
      exact (entered.follows.sound (sound.start entered.started)).setLock releasing

theorem sound_hostAfter (params : Params) {memory : MemoryHost} (sound : Sound memory.record)
    (turns : List Turn) : Sound (hostAfter params memory turns).record := by
  induction turns generalizing memory with
  | nil => exact sound
  | cons turn turns induction => exact induction (Turn.sound sound turn)

/-! ## The operation under a hook -/

/-- A sound record in which an operation stands at a place. -/
structure Booked (place : Nat) (booking : Booking) (record : Text) : Prop where
  placed : ∃ ledger, Represents record ledger ∧ ledger.Coherent ∧
    ledger.bookings[place]? = some booking
  tame : Record.Tame record

/-- Under the lock an operation stays as it is, whatever is dispatched. -/
theorem Booked.next {place : Nat} {booking : Booking} {params : Params} {record : Text}
    {move : Move} (booked : Booked place booking record)
    (held : Execution.Held params record) (proper : move.Proper) :
    Booked place booking (move.next params record) := by
  rcases booked with ⟨⟨ledger, holds, coherent, placed⟩, tame⟩
  refine ⟨?_, ((Sound.mk ⟨ledger, holds, coherent⟩ tame).next params move).tame⟩
  rcases holds.next coherent move with
    ⟨fault, -, same⟩ | ⟨receipt, after, done, afterHolds, afterCoherent, step⟩
  · rw [same]
    exact ⟨ledger, holds, coherent, placed⟩
  refine ⟨after, afterHolds, afterCoherent, ?_⟩
  rcases step.bookings_cases with
    ⟨same, -⟩ | ⟨new, time, -, -, -, -, appended⟩ | ⟨elsewhere, other, executes, -⟩
  · rw [same, placed]
  · exact appended ▸ getElem?_append_of_some placed _
  · rw [Move.outcome, executes, Action.apply,
      Execution.run_of_locked proper.caller_size held.locked] at done
    cases done

/-- The operation that a sound record is found to be executable for is Ready. -/
theorem Sound.booked_of_validate {params : Params} {record : Text} {id index : Nat}
    {now : Number} (sound : Sound record)
    (valid : Execution.validate params record (id : Number) now = .ok index) :
    ∃ place booking, Booked place booking record ∧ booking.proposalId = id ∧
      booking.stateAt params now = .ready := by
  rcases sound.represented with ⟨ledger, holds, coherent⟩
  simp only [Execution.validate, Outcome.bind_eq_ok] at valid
  rcases valid with ⟨number, numberEq, place, placeEq, checked, checking, -⟩
  cases Number.natCast_inj.mp (Number.u32_eq_ok.mp numberEq).1
  rcases holds.indexOfProposal_eq_ok placeEq with ⟨booking, placed, same⟩
  have ready := (Operations.checkExecutable_eq_ok checking).2
  rw [holds.operationStateAt_eq placed] at ready
  exact ⟨place, booking, ⟨⟨ledger, holds, coherent, placed⟩, sound.tame⟩, same, ready⟩

/-- A hook only runs for an operation that is Ready. -/
theorem Turn.Entered.booked {params : Params} {turn : Turn} {record : Text} {id : Nat}
    {run : HookRun} (entered : turn.Entered params record id run) (sound : Sound record) :
    ∃ place booking, Booked place booking run.met ∧ booking.proposalId = id ∧
      booking.stateAt params (turn.move.now : Number) = .ready := by
  rcases entered.valid with ⟨index, valid⟩
  exact (sound.start entered.started).booked_of_validate valid

/-! ## Executions whose hook has returned -/

/-- An execution that was completed on what its hook has left: its operation is Done, its
proposal is Executed, its lock is released, and all else stands as the hook left it. -/
structure Settled (params : Params) (turn : Turn) (run : HookRun) (id place index : Nat)
    (final : Text) : Prop where
  follows : Follows params run.met run.dispatches
  completing : Execution.complete params run.left (id : Number) (turn.move.now : Number) =
    .ok final
  operation_eq : Operations.indexOfProposal final id = .ok place
  operation_done : Operations.storedState final place = .done
  proposal_eq : Proposals.indexOf final id = .ok index
  proposal_executed : Proposals.storedState final index = .executed
  unlocked : Proposals.isLocked final = false
  kept : ∀ key, key ≠ .operation place .state → key ≠ .proposal index .state → key ≠ .lock →
    Record.read? final key = Record.read? run.left key

namespace Turn.Entered

variable {params : Params} {turn : Turn} {record : Text} {id : Nat} {run : HookRun}
  (entered : turn.Entered params record id run) (sound : Sound record)

include entered sound

/-- Nothing that a hook dispatches keeps its execution from being completed. -/
theorem exists_complete :
    ∃ final, Execution.complete params run.left (id : Number) (turn.move.now : Number) =
      .ok final := by
  have met := Execution.held_of_start entered.started
  rcases entered.booked sound with ⟨place, booking, booked, rfl, ready⟩
  rcases (entered.follows.keeps booked fun _ _ held proper booked =>
    booked.next held proper).2 with ⟨⟨ledger, holds, coherent, placed⟩, tame⟩
  exact holds.exists_complete coherent placed (entered.follows.held met).2 tame ready

theorem settled {final : Text}
    (completing : Execution.complete params run.left (id : Number) (turn.move.now : Number) =
      .ok final) :
    ∃ place index, Settled params turn run id place index final := by
  have left := entered.follows.sound (sound.start entered.started)
  rcases left.represented with ⟨ledger, holds, coherent⟩
  rcases holds.complete coherent completing with
    ⟨index, place, motion, booking, idEq, addressed, found, placed, -, finalHolds, kept⟩
  cases Number.natCast_inj.mp idEq
  have executed := coherent.execute addressed found placed
  let after := ((ledger.setBooking place (booking.withState .done)).setMotion index
    (motion.withState .executed)).setLock false
  have finalPlaced : after.bookings[place]? = some (booking.withState .done) :=
    getElem?_set_same placed _
  have finalFound : after.motions[index]? = some (motion.withState .executed) :=
    getElem?_set_same found _
  have sameId : (motion.withState .executed).id = motion.id := rfl
  have finalAddressed : after.indexOf booking.proposalId = some index :=
    (Ledger.indexOf_setMotion found sameId booking.proposalId).trans addressed
  have operationEq : Operations.indexOfProposal final (booking.withState .done).proposalId =
      .ok place :=
    finalHolds.indexOfProposal_of_placed ⟨executed.booked_nodup, executed.booked⟩ finalPlaced
  exact ⟨place, index, {
    follows := entered.follows
    completing
    operation_eq := operationEq
    operation_done := finalHolds.operationState_eq finalPlaced
    proposal_eq := finalHolds.indexOf_eq_ok.mpr finalAddressed
    proposal_executed := finalHolds.storedState_eq finalFound
    unlocked := Execution.isLocked_of_complete completing
    kept }⟩

end Turn.Entered

/-- A hook that has run and returned is followed by the completion of its execution, on the
record that the last of its dispatches has left. -/
theorem side_effect_recorded (params : Params) {memory : MemoryHost}
    (seeded : Seeded memory.record) (turns : List Turn) (turn : Turn) {run : HookRun}
    (ran : run ∈ (turn.play params (hostAfter params memory turns)).2.runs)
    (returns : run.reason = none) :
    ∃ id place index : Nat, turn.move.action = .execute (id : Number) ∧
      (turn.play params (hostAfter params memory turns)).1 = .ok {
        record := (turn.play params (hostAfter params memory turns)).2.memory.record
        proposalId := some id } ∧
      Settled params turn run id place index
        (turn.play params (hostAfter params memory turns)).2.memory.record := by
  have sound := sound_hostAfter params seeded.sound turns
  have plays := turn.plays params (hostAfter params memory turns)
  generalize (turn.play params (hostAfter params memory turns)).1 = result at plays ⊢
  generalize (turn.play params (hostAfter params memory turns)).2.memory.record = final
    at plays ⊢
  generalize (turn.play params (hostAfter params memory turns)).2.runs = runs at plays ran
  cases plays with
  | plain | refused => exact absurd ran List.not_mem_nil
  | failed entered fails =>
      cases List.mem_singleton.mp ran
      cases returns.symm.trans fails
  | completed entered _ completing =>
      cases List.mem_singleton.mp ran
      rcases entered.settled sound completing with ⟨place, index, settled⟩
      exact ⟨_, place, index, entered.executes, rfl, settled⟩
  | incomplete entered _ incomplete =>
      -- The one way to lose a side effect, which no sequence of dispatches opens.
      cases List.mem_singleton.mp ran
      rcases entered.exists_complete sound with ⟨final, completing⟩
      cases incomplete.symm.trans completing

theorem sample_side_effect_recorded :
    let played := (Sample.execution none).play Sample.params
      (hostAfter Sample.params Sample.host Sample.turns)
    Seeded Sample.host.record ∧ ∃ run ∈ played.2.runs, run.reason = none ∧
      run.dispatches.length = 3 ∧ run.left ≠ run.met ∧
      ∃ id place index : Nat, (Sample.execution none).move.action = .execute (id : Number) ∧
        played.1 = .ok { record := played.2.memory.record, proposalId := some id } ∧
        Settled Sample.params (Sample.execution none) run id place index
          played.2.memory.record := by
  have ran : ∃ run ∈ ((Sample.execution none).play Sample.params
      (hostAfter Sample.params Sample.host Sample.turns)).2.runs,
      run.reason = none ∧ run.dispatches.length = 3 ∧ run.left ≠ run.met := by
    decide +kernel
  rcases ran with ⟨run, ran, returns, count, changed⟩
  exact ⟨Sample.seeded, run, ran, returns, count, changed,
    side_effect_recorded Sample.params Sample.seeded _ _ ran returns⟩

end LedgerGovernance
