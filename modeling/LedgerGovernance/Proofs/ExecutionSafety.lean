import LedgerGovernance.Proofs.Runs

/-! No execution without a vote that carried, and none too early, too late or twice. A
run is compared with the operations that its ledger holds: each of them was scheduled at
one step that queued its proposal, and each execution has left its operation Done. -/

namespace LedgerGovernance

/-! ## Operations across a step -/

namespace Ledger.Step

variable {params : Params} {caller : Account} {now : Number} {action : Action}
  {before after : Ledger}

/-- Only queueing and executing touch the operations. -/
theorem bookings_cases (step : Step params caller now before action after) :
    (after.bookings = before.bookings ∧ (∀ id, action ≠ .queue id) ∧
      ∀ id, action ≠ .execute id) ∨
    (∃ (booking : Booking) (time : Nat), action = .queue (booking.proposalId : Number) ∧
      now = (time : Number) ∧ booking.readyAt = time + params.timelockMinDelay ∧
      (∃ index motion, before.indexOf booking.proposalId = some index ∧
        before.motions[index]? = some motion ∧ motion.state.isExplicit = false) ∧
      after.bookings = before.bookings ++ [booking]) ∨
    ∃ (place : Nat) (booking : Booking), action = .execute (booking.proposalId : Number) ∧
      before.bookings[place]? = some booking ∧ booking.stateAt params now = .ready ∧
      after.bookings = before.bookings.set place (booking.withState .done) := by
  cases step with
  | entered appoints seated =>
      have touched : after.bookings = before.bookings := by cases seated.entered <;> rfl
      refine .inl ⟨touched, ?_, ?_⟩ <;> rintro id rfl <;> cases appoints
  | @queued id index motion booking addressed found _ succeeded proposalId _ time timeEq ready =>
      subst proposalId
      exact .inr (.inl ⟨booking, time, rfl, timeEq, ready,
        ⟨index, motion, addressed, found, Motion.idle_of_stateAt succeeded rfl⟩, rfl⟩)
  | @executed id index place motion booking addressed found placed proposalId ready =>
      subst proposalId
      exact .inr (.inr ⟨place, booking, rfl, placed, ready, rfl⟩)
  | _ => exact .inl ⟨rfl, nofun, nofun⟩

/-- An operation stays, with its proposal and its time, and once Done it stays Done. -/
theorem booking_kept (step : Step params caller now before action after) {booking : Booking}
    (member : booking ∈ before.bookings) :
    ∃ kept ∈ after.bookings, kept.proposalId = booking.proposalId ∧
      kept.readyAt = booking.readyAt ∧ (booking.state = .done → kept.state = .done) := by
  rcases step.bookings_cases with
    ⟨same, -⟩ | ⟨new, time, -, -, -, -, appended⟩ | ⟨place, executed, -, placed, -, replaced⟩
  · exact ⟨booking, same ▸ member, rfl, rfl, id⟩
  · exact ⟨booking, appended ▸ List.mem_append_left _ member, rfl, rfl, id⟩
  · rcases List.mem_iff_getElem?.mp member with ⟨other, otherPlaced⟩
    rcases exists_getElem?_set placed otherPlaced (executed.withState .done) with
      ⟨kept, keptPlaced, same | ⟨-, rfl, rfl⟩⟩
    · subst same
      exact ⟨kept, replaced ▸ List.mem_of_getElem? keptPlaced, rfl, rfl, id⟩
    · exact ⟨booking.withState .done, replaced ▸ List.mem_of_getElem? keptPlaced, rfl, rfl,
        fun _ => rfl⟩

/-- No operation comes from anywhere but the queueing of its proposal. -/
theorem booking_origin (step : Step params caller now before action after) {booking : Booking}
    (member : booking ∈ after.bookings) :
    (∃ old ∈ before.bookings, old.proposalId = booking.proposalId) ∨
      action = .queue (booking.proposalId : Number) := by
  rcases step.bookings_cases with
    ⟨same, -⟩ | ⟨new, time, queues, -, -, -, appended⟩ | ⟨place, executed, -, placed, -, replaced⟩
  · exact .inl ⟨booking, same ▸ member, rfl⟩
  · rcases List.mem_append.mp (appended ▸ member) with old | last
    · exact .inl ⟨booking, old, rfl⟩
    · rw [List.mem_singleton.mp last]
      exact .inr queues
  · rcases List.mem_or_eq_of_mem_set (replaced ▸ member) with old | equal
    · exact .inl ⟨booking, old, rfl⟩
    · exact .inl ⟨executed, List.mem_of_getElem? placed, equal ▸ rfl⟩

/-- Queueing schedules an operation for the proposal, with the least delay. -/
theorem of_queue {id : Number} (step : Step params caller now before (.queue id) after) :
    ∃ booking ∈ after.bookings, id = (booking.proposalId : Number) ∧
      ∃ time : Nat, now = (time : Number) ∧
        booking.readyAt = time + params.timelockMinDelay := by
  rcases step.bookings_cases with
    ⟨-, other, -⟩ | ⟨new, time, queues, timeEq, ready, -, appended⟩ | ⟨place, executed, executes, -⟩
  · exact absurd rfl (other id)
  · cases queues
    exact ⟨new, by simp [appended], rfl, time, timeEq, ready⟩
  · cases executes

/-- Executing needs an operation of the proposal that is Ready, and leaves it Done. -/
theorem of_execute {id : Number} (step : Step params caller now before (.execute id) after) :
    ∃ booking ∈ before.bookings, id = (booking.proposalId : Number) ∧
      booking.stateAt params now = .ready ∧ booking.withState .done ∈ after.bookings := by
  rcases step.bookings_cases with
    ⟨-, -, other⟩ | ⟨new, time, queues, -⟩ | ⟨place, executed, executes, placed, ready, replaced⟩
  · exact absurd rfl (other id)
  · cases queues
  · cases executes
    exact ⟨executed, List.mem_of_getElem? placed, rfl, ready,
      replaced ▸ List.mem_of_getElem? (getElem?_set_same placed _)⟩

/-- A proposal with an operation is not queued again. -/
theorem not_queue_of_booked (step : Step params caller now before action after)
    (coherent : before.Coherent) {booking : Booking} (member : booking ∈ before.bookings) :
    action ≠ .queue (booking.proposalId : Number) := by
  rintro rfl
  rcases step.bookings_cases with ⟨-, other, -⟩ |
    ⟨new, time, queues, -, -, ⟨index, motion, addressed, found, idle⟩, -⟩ |
    ⟨place, executed, executes, -⟩
  · exact other _ rfl
  · rw [← Number.natCast_inj.mp (Action.queue.inj queues)] at addressed
    rw [coherent.isExplicit_of_booked member addressed found] at idle
    cases idle
  · cases executes

end Ledger.Step

/-! ## Operations across a run -/

/-- The ledger behind a run tells which proposals were queued, when, and which of them
were executed. -/
structure Recorded (params : Params) (start : Text) (moves : List Move) (ledger : Ledger) :
    Prop where
  booked_of_queue : ∀ {step move id}, SucceedsAt params start moves step move →
    move.action = .queue id → ∃ booking ∈ ledger.bookings,
      id = (booking.proposalId : Number) ∧
        booking.readyAt = move.now + params.timelockMinDelay
  queue_of_booked : ∀ booking ∈ ledger.bookings, ∃ step,
    ActsAt params start moves step (.queue (booking.proposalId : Number))
  done_of_execute : ∀ {step move id}, SucceedsAt params start moves step move →
    move.action = .execute id → ∃ booking ∈ ledger.bookings,
      id = (booking.proposalId : Number) ∧ booking.state = .done

namespace Recorded

variable {params : Params} {start : Text} {moves : List Move} {ledger after : Ledger}
  {move : Move}

theorem refused (recorded : Recorded params start moves ledger) {fault : Fault}
    (fails : move.outcome params (recordAfter params start moves) = .error fault) :
    Recorded params start (moves ++ [move]) ledger := by
  have earlier {step : Nat} {other : Move}
      (succeeds : SucceedsAt params start (moves ++ [move]) step other) :
      SucceedsAt params start moves step other := by
    rcases succeeds.append_singleton_cases with before | ⟨-, rfl, receipt, done⟩
    · exact before
    · cases fails.symm.trans done
  constructor
  case booked_of_queue =>
    intro step other id succeeds queues
    exact recorded.booked_of_queue (earlier succeeds) queues
  case queue_of_booked =>
    intro booking member
    rcases recorded.queue_of_booked booking member with ⟨step, queuing, succeeds, queues⟩
    exact ⟨step, queuing, (SucceedsAt.append_singleton_iff succeeds.lt_length).mpr succeeds,
      queues⟩
  case done_of_execute =>
    intro step other id succeeds executes
    exact recorded.done_of_execute (earlier succeeds) executes

theorem stepped (recorded : Recorded params start moves ledger) {receipt : Receipt}
    (done : move.outcome params (recordAfter params start moves) = .ok receipt)
    (step : Ledger.Step params move.caller (move.now : Number) ledger move.action after) :
    Recorded params start (moves ++ [move]) after := by
  constructor
  case booked_of_queue =>
    intro place other id otherSucceeds queues
    rcases otherSucceeds.append_singleton_cases with before | ⟨-, rfl, -⟩
    · rcases recorded.booked_of_queue before queues with ⟨booking, member, rfl, ready⟩
      rcases step.booking_kept member with ⟨kept, keptMember, sameId, sameReady, -⟩
      exact ⟨kept, keptMember, by rw [sameId], sameReady.trans ready⟩
    · rw [queues] at step
      rcases step.of_queue with ⟨booking, member, rfl, time, timeEq, ready⟩
      rw [Number.natCast_inj.mp timeEq]
      exact ⟨booking, member, rfl, ready⟩
  case queue_of_booked =>
    intro booking member
    rcases step.booking_origin member with ⟨old, oldMember, same⟩ | queues
    · rcases recorded.queue_of_booked old oldMember with ⟨place, queuing, before, queues⟩
      rw [same] at queues
      exact ⟨place, queuing, (SucceedsAt.append_singleton_iff before.lt_length).mpr before,
        queues⟩
    · exact ⟨moves.length, move, SucceedsAt.last_iff.mpr ⟨rfl, receipt, done⟩, queues⟩
  case done_of_execute =>
    intro place other id otherSucceeds executes
    rcases otherSucceeds.append_singleton_cases with before | ⟨-, rfl, -⟩
    · rcases recorded.done_of_execute before executes with ⟨booking, member, rfl, isDone⟩
      rcases step.booking_kept member with ⟨kept, keptMember, sameId, -, keptDone⟩
      exact ⟨kept, keptMember, by rw [sameId], keptDone isDone⟩
    · rw [executes] at step
      rcases step.of_execute with ⟨booking, -, rfl, -, member⟩
      exact ⟨booking.withState .done, member, rfl, rfl⟩

end Recorded

theorem Seeded.recorded (params : Params) {start : Text} (seeded : Seeded start)
    (moves : List Move) :
    ∃ ledger, Represents (recordAfter params start moves) ledger ∧ ledger.Coherent ∧
      Recorded params start moves ledger := by
  rcases seeded.represented with ⟨ledger, holds, coherent, -, unbooked⟩
  have nothing {step : Nat} {move : Move} : ¬ SucceedsAt params start [] step move :=
    fun succeeds => absurd succeeds.lt_length (Nat.not_lt_zero _)
  have initial : Recorded params start [] ledger :=
    ⟨fun succeeds => absurd succeeds nothing, by simp [unbooked],
      fun succeeds => absurd succeeds nothing⟩
  exact holds.run coherent initial (fun _ _ _ _ recorded fails => recorded.refused fails)
    (fun _ _ _ _ _ _ recorded done _ step => recorded.stepped done step) moves

/-! ## Executions of a run -/

/-- The vote on the proposal that an id addresses is over, and it has carried. -/
def Carried (params : Params) (record : Text) (id : Number) (now : Nat) : Prop :=
  ∃ proposal : Proposal, Actions.addressed record id = .ok proposal.index ∧
    Proposals.at? record proposal.index = some proposal ∧
    proposal.voteEnd < now ∧ proposal.againstVotes < proposal.forVotes ∧
    Members.quorum params (Members.totalPower record) ≤
      (proposal.forVotes + proposal.abstainVotes : Nat)

/-- Behind an execution stands an operation of the proposal that is Pending, and whose
timelock has run out but not lapsed. -/
theorem Represents.timelock_of_execute {params : Params} {record : Text} {ledger : Ledger}
    (holds : Represents record ledger) (coherent : ledger.Coherent) {move : Move}
    {receipt : Receipt} {id : Number} (done : move.outcome params record = .ok receipt)
    (executes : move.action = .execute id) :
    ∃ booking ∈ ledger.bookings, id = (booking.proposalId : Number) ∧
      booking.state = .pending ∧ booking.readyAt ≤ move.now ∧
        move.now ≤ min (booking.readyAt + params.timelockGracePeriod) maxU32 := by
  rcases holds.apply coherent done with ⟨after, -, step⟩
  rw [executes] at step
  rcases step.of_execute with ⟨booking, member, idEq, ready, -⟩
  have unready : booking.state ≠ .ready := by
    rcases coherent.booked booking member with
      ⟨_, _, -, -, ⟨state, -⟩ | ⟨state, -⟩⟩ <;> simp [state]
  rcases Booking.of_stateAt_ready ready unready with ⟨pending, early, late⟩
  exact ⟨booking, member, idEq, pending,
    Nat.le_of_not_lt fun less => early (Number.natCast_lt.mpr less),
    Nat.le_of_not_lt fun less => late (Number.natCast_lt.mpr less)⟩

/-- What stands behind an execution at a step of a run: one queueing, of a proposal whose
vote had carried by then and whose timelock has run out but not lapsed, and an executor.
Nothing else executes the proposal. -/
structure Justified (params : Params) (start : Text) (moves : List Move) (step : Nat)
    (move : Move) (id : Number) : Prop where
  queued_once : ∃! queuedAt, queuedAt < step ∧ ActsAt params start moves queuedAt (.queue id)
  carried : ∀ queuedAt < step, ∀ queuing, SucceedsAt params start moves queuedAt queuing →
    queuing.action = .queue id →
      Carried params (recordAfter params start (moves.take queuedAt)) id queuing.now
  timely : ∀ queuedAt < step, ∀ queuing, SucceedsAt params start moves queuedAt queuing →
    queuing.action = .queue id →
      queuing.now + params.timelockMinDelay ≤ move.now ∧
        move.now ≤ min (queuing.now + params.timelockMinDelay + params.timelockGracePeriod)
          maxU32
  executor : Members.hasRole (recordAfter params start (moves.take step)) move.caller
    Role.executor.bit = true
  executed_once : ∀ other, ActsAt params start moves other (.execute id) → other = step

section

variable {params : Params} {start : Text} (seeded : Seeded start) {moves : List Move}
  {id : Number}

include seeded

theorem carried_of_queue {step : Nat} {move : Move}
    (succeeds : SucceedsAt params start moves step move) (queues : move.action = .queue id) :
    Carried params (recordAfter params start (moves.take step)) id move.now := by
  rcases seeded.run_represented params (moves.take step) with ⟨ledger, holds, -⟩
  rcases succeeds.2 with ⟨receipt, done⟩
  rw [Move.outcome, queues] at done
  rcases Outcome.bind_eq_ok.mp done with ⟨queued, queuing, -⟩
  rcases Actions.queue_eq_ok queuing with ⟨number, index, readyAt, scheduled, passed⟩
  have indexEq := holds.indexOf_eq_ok.mp passed.index_eq
  rcases Ledger.indexOf_eq_some indexEq with ⟨motion, found, -⟩
  have succeeded := passed.succeeded
  rw [holds.stateAt_eq found] at succeeded
  rcases Motion.of_stateAt_succeeded succeeded with ⟨ended, majority, quorum⟩
  have addressed := Actions.addressed_eq_ok.mpr ⟨number, passed.proposalId_eq,
    (Number.u32_eq_ok.mp passed.opened.proposalId_eq).2, passed.index_eq⟩
  exact ⟨motion.proposal index, addressed, holds.proposalAt?_eq found,
    Nat.lt_of_not_le fun early => ended (Number.natCast_le.mpr early), majority, quorum⟩

private theorem not_queued_again {first second : Nat}
    (firstQueues : ActsAt params start moves first (.queue id))
    (secondQueues : ActsAt params start moves second (.queue id)) : ¬ first < second := by
  intro before
  rcases firstQueues with ⟨firstMove, firstSucceeds, firstAction⟩
  rcases secondQueues with ⟨secondMove, ⟨-, receipt, done⟩, secondAction⟩
  rcases seeded.recorded params (moves.take second) with ⟨ledger, holds, coherent, recorded⟩
  rcases recorded.booked_of_queue ((SucceedsAt.take_iff before).mpr firstSucceeds) firstAction
    with ⟨booking, member, rfl, -⟩
  rcases holds.apply coherent done with ⟨after, -, step⟩
  exact step.not_queue_of_booked coherent member secondAction

theorem queued_once {first second : Nat}
    (firstQueues : ActsAt params start moves first (.queue id))
    (secondQueues : ActsAt params start moves second (.queue id)) : first = second := by
  have notBefore := not_queued_again seeded firstQueues secondQueues
  have notAfter := not_queued_again seeded secondQueues firstQueues
  omega

private theorem not_executed_again {first second : Nat}
    (firstExecutes : ActsAt params start moves first (.execute id))
    (secondExecutes : ActsAt params start moves second (.execute id)) : ¬ first < second := by
  intro before
  rcases firstExecutes with ⟨firstMove, firstSucceeds, firstAction⟩
  rcases secondExecutes with ⟨secondMove, ⟨-, receipt, done⟩, secondAction⟩
  rcases seeded.recorded params (moves.take second) with ⟨ledger, holds, coherent, recorded⟩
  rcases recorded.done_of_execute ((SucceedsAt.take_iff before).mpr firstSucceeds) firstAction
    with ⟨booking, member, rfl, isDone⟩
  rcases holds.timelock_of_execute coherent done secondAction with
    ⟨other, otherMember, same, pending, -⟩
  rw [coherent.eq_of_proposalId_eq otherMember member
    (Number.natCast_inj.mp same.symm), isDone] at pending
  cases pending

theorem executed_once {first second : Nat}
    (firstExecutes : ActsAt params start moves first (.execute id))
    (secondExecutes : ActsAt params start moves second (.execute id)) : first = second := by
  have notBefore := not_executed_again seeded firstExecutes secondExecutes
  have notAfter := not_executed_again seeded secondExecutes firstExecutes
  omega

/-- Every execution of a run that has a result is justified. -/
theorem executions_justified {step : Nat} {move : Move}
    (succeeds : SucceedsAt params start moves step move) (executes : move.action = .execute id) :
    Justified params start moves step move id := by
  have executing := succeeds.2
  rcases executing with ⟨receipt, done⟩
  rcases seeded.recorded params (moves.take step) with ⟨ledger, holds, coherent, recorded⟩
  rcases holds.timelock_of_execute coherent done executes with
    ⟨booking, member, idEq, -, waited, inTime⟩
  constructor
  case queued_once =>
    rcases recorded.queue_of_booked booking member with ⟨queuedAt, queuing, queued, queues⟩
    have before : queuedAt < step := by
      have inside := queued.lt_length
      rw [List.length_take] at inside
      omega
    have thisQueues : ActsAt params start moves queuedAt (.queue id) :=
      ⟨queuing, (SucceedsAt.take_iff before).mp queued, idEq ▸ queues⟩
    refine ⟨queuedAt, ⟨before, thisQueues⟩, ?_⟩
    rintro other ⟨-, otherQueues⟩
    exact queued_once seeded otherQueues thisQueues
  case carried =>
    intro queuedAt _ queuing queued queues
    exact carried_of_queue seeded queued queues
  case timely =>
    intro queuedAt before queuing queued queues
    rcases recorded.booked_of_queue ((SucceedsAt.take_iff before).mpr queued) queues with
      ⟨other, otherMember, otherId, readyAt⟩
    rw [coherent.eq_of_proposalId_eq otherMember member
      (Number.natCast_inj.mp (otherId.symm.trans idEq))] at readyAt
    rw [readyAt] at waited inTime
    exact ⟨waited, inTime⟩
  case executor =>
    rw [Move.outcome, executes] at done
    rcases Outcome.bind_eq_ok.mp done with ⟨next, running, -⟩
    rcases Outcome.bind_eq_ok.mp running with ⟨locked, starting, -⟩
    exact (Execution.start_eq_ok starting).1
  case executed_once =>
    intro other otherExecutes
    exact executed_once seeded otherExecutes ⟨move, succeeds, executes⟩

end

theorem sample_execution_justified :
    ∃ move, SucceedsAt Sample.params Sample.start Sample.moves 5 move ∧
      Justified Sample.params Sample.start Sample.moves 5 move Sample.id := by
  have succeeds : SucceedsAt Sample.params Sample.start Sample.moves 5
      { caller := Sample.alice, now := 136, action := .execute Sample.id } :=
    ⟨rfl, Outcome.exists_of_isOk (by decide +kernel)⟩
  exact ⟨_, succeeds, executions_justified Sample.seeded succeeds rfl⟩

end LedgerGovernance
