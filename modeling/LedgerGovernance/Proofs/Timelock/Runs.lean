import LedgerGovernance.Proofs.Ledger.Coherence
import LedgerGovernance.Proofs.Runs

/-! Runs of the timelock alone. Operations are scheduled, executed and canceled in any order
on a record that is empty at first. Nothing ties them to proposals here: a proposal may have
many, and so there may be more of them than the counter can tell. As long as it can, the
record represents a ledger, and every move takes it one step on. -/

namespace LedgerGovernance

namespace Timelock

/-! ## Moves -/

inductive Action where
  | schedule (proposalId delay : Number) (predecessorId : Option Number)
  | execute (index : Number)
  | executeInOrder (index : Number)
  | cancel (index : Number)
deriving DecidableEq, Repr

def Action.isSchedule : Action → Bool
  | schedule .. => true
  | execute _ | executeInOrder _ | cancel _ => false

/-- The record behind an action. An index is judged by the first key that it is part of. -/
def Action.apply (action : Action) (params : Params) (record : Text) (now : Number) :
    Outcome Text := do
  match action with
  | schedule proposalId delay predecessorId =>
      return (← Operations.schedule params record proposalId now delay predecessorId).record
  | execute index => Operations.execute params record (← index.keyIndex) now
  | executeInOrder index => Operations.executeInOrder params record (← index.keyIndex) now
  | cancel index => Operations.cancel params record (← index.keyIndex) now

/-- An action at a time. The parameters need not be those of the move before. -/
structure Move where
  params : Params
  now : Nat
  action : Action

namespace Move

def outcome (move : Move) (record : Text) : Outcome Text :=
  move.action.apply move.params record (move.now : Number)

/-- The record behind a move. -/
def next (record : Text) (move : Move) : Text :=
  match move.outcome record with
  | .ok next => next
  | .error _ => record

/-- Whether a move schedules an operation. -/
def schedules (record : Text) (move : Move) : Bool :=
  move.action.isSchedule && (move.outcome record).isOk

theorem schedules_of_ok {move : Move} {record next : Text}
    (done : move.outcome record = .ok next) :
    move.schedules record = move.action.isSchedule := by
  simp [schedules, done, Except.isOk, Except.toBool]

theorem schedules_of_error {move : Move} {record : Text} {fault : Fault}
    (failed : move.outcome record = .error fault) : move.schedules record = false := by
  simp [schedules, failed, Except.isOk, Except.toBool]

end Move

/-! ## Runs -/

/-- The record after some moves. -/
def recordAfter (moves : List Move) : Text :=
  moves.foldl Move.next []

/-- The record after the first moves of a run. -/
def recordAt (moves : List Move) (count : Nat) : Text :=
  recordAfter (moves.take count)

/-- How many operations some moves schedule, from a record on. -/
def scheduledFrom (record : Text) : List Move → Nat
  | [] => 0
  | move :: moves => (move.schedules record).toNat + scheduledFrom (move.next record) moves

/-- How many operations a run schedules. -/
def scheduled (moves : List Move) : Nat :=
  scheduledFrom [] moves

/-- A step of a run is a certain action, and it has a result. -/
def SucceedsAt (moves : List Move) (step : Nat) (action : Action) : Prop :=
  ∃ move, moves[step]? = some move ∧ move.action = action ∧
    move.outcome (recordAt moves step) = .ok (recordAt moves (step + 1))

theorem recordAfter_append_singleton (moves : List Move) (move : Move) :
    recordAfter (moves ++ [move]) = move.next (recordAfter moves) :=
  List.foldl_append

theorem recordAt_succ {moves : List Move} {step : Nat} {move : Move}
    (placed : moves[step]? = some move) :
    recordAt moves (step + 1) = move.next (recordAt moves step) := by
  rw [recordAt, List.take_add_one, placed, Option.toList_some, recordAfter_append_singleton,
    recordAt]

theorem recordAt_of_length_le {moves : List Move} {count : Nat} (behind : moves.length ≤ count) :
    recordAt moves (count + 1) = recordAt moves count := by
  rw [recordAt, recordAt, List.take_of_length_le behind,
    List.take_of_length_le (Nat.le_succ_of_le behind)]

theorem scheduledFrom_append (record : Text) (first second : List Move) :
    scheduledFrom record (first ++ second) =
      scheduledFrom record first + scheduledFrom (first.foldl Move.next record) second := by
  induction first generalizing record with
  | nil => exact (Nat.zero_add _).symm
  | cons move moves induction =>
      rw [List.cons_append, scheduledFrom, scheduledFrom, induction, Nat.add_assoc,
        List.foldl_cons]

theorem scheduled_append_singleton (moves : List Move) (move : Move) :
    scheduled (moves ++ [move]) =
      scheduled moves + (move.schedules (recordAfter moves)).toNat :=
  scheduledFrom_append [] moves [move]

theorem scheduled_take_succ {moves : List Move} {step : Nat} {move : Move}
    (placed : moves[step]? = some move) :
    scheduled (moves.take (step + 1)) =
      scheduled (moves.take step) + (move.schedules (recordAt moves step)).toNat := by
  rw [List.take_add_one, placed, Option.toList_some, scheduled_append_singleton, recordAt]

theorem scheduled_take_le (moves : List Move) (count : Nat) :
    scheduled (moves.take count) ≤ scheduled moves := by
  conv => rhs; rw [← List.take_append_drop count moves, scheduled, scheduledFrom_append]
  exact Nat.le_add_right _ _

/-! ## Steps of a ledger -/

/-- What an action at a time can make of the operation at an index. -/
inductive Changes (params : Params) (now : Number) (index : Nat) (booking : Booking) :
    Action → Booking → Prop
  | executed (ready : booking.stateAt params now = .ready) :
      Changes params now index booking (.execute (index : Number)) (booking.withState .done)
  | executedInOrder (ready : booking.stateAt params now = .ready) :
      Changes params now index booking (.executeInOrder (index : Number))
        (booking.withState .done)
  | canceled (live : (booking.stateAt params now).isLive = true) :
      Changes params now index booking (.cancel (index : Number)) (booking.withState .unset)

/-- What an action at a time can make of a ledger: an operation is added, or one changes. -/
inductive Step (params : Params) (now : Number) (before : Ledger) : Action → Ledger → Prop
  | scheduled {booking : Booking} {delay : Number}
      (pending : booking.state = .pending)
      (longEnough : ¬ delay < (params.timelockMinDelay : Number))
      (ready : now.checkedAdd delay = some (booking.readyAt : Number))
      (idle : ∀ other ∈ before.bookings, other.proposalId = booking.proposalId →
        (other.stateAt params now).isLive = false) :
      Step params now before
        (.schedule (booking.proposalId : Number) delay
          (booking.predecessor.map fun (id : Nat) => (id : Number)))
        (before.addBooking booking)
  | changed {index : Nat} {booking later : Booking} {action : Action}
      (found : before.bookings[index]? = some booking)
      (changes : Changes params now index booking action later) :
      Step params now before action (before.setBooking index later)

namespace Changes

variable {params : Params} {now : Number} {index : Nat} {booking later : Booking}
  {action : Action}

/-- Only a live operation changes. -/
theorem live (changes : Changes params now index booking action later) :
    (booking.stateAt params now).isLive = true := by
  cases changes with
  | executed ready | executedInOrder ready =>
      rw [ready]
      rfl
  | canceled live => exact live

/-- Nothing but the state of an operation changes. -/
theorem withState_eq (changes : Changes params now index booking action later) :
    later = booking.withState later.state := by
  cases changes <;> rfl

theorem of_done (changes : Changes params now index booking action later)
    (done : later.state = .done) :
    action = .execute (index : Number) ∨ action = .executeInOrder (index : Number) := by
  cases changes with
  | executed => exact .inl rfl
  | executedInOrder => exact .inr rfl
  | canceled => cases done

end Changes

namespace Step

variable {params : Params} {now : Number} {before after : Ledger} {action : Action}

/-- An operation stays as it is, unless it was live: then its state may change. -/
theorem booking_kept (step : Step params now before action after) {index : Nat}
    {booking : Booking} (found : before.bookings[index]? = some booking) :
    ∃ later, after.bookings[index]? = some later ∧
      (later = booking ∨ Changes params now index booking action later) := by
  cases step with
  | scheduled => exact ⟨booking, getElem?_append_of_some found _, .inl rfl⟩
  | @changed place old new _ oldFound changes =>
      rcases exists_getElem?_set oldFound found new with
        ⟨later, laterFound, same | ⟨rfl, rfl, rfl⟩⟩
      · exact ⟨later, laterFound, .inl same⟩
      · exact ⟨later, laterFound, .inr changes⟩

/-- An operation was there before, or it is new, or it has changed. -/
theorem booking_origin (step : Step params now before action after) {index : Nat}
    {later : Booking} (found : after.bookings[index]? = some later) :
    before.bookings[index]? = some later ∨ later.state = .pending ∨
      ∃ booking, before.bookings[index]? = some booking ∧
        Changes params now index booking action later := by
  cases step with
  | scheduled pending =>
      rw [Ledger.addBooking, getElem?_append_singleton] at found
      split at found
      · cases found
        exact .inr (.inl pending)
      · exact .inl found
  | changed oldFound changes =>
      rcases getElem?_set_cases found with same | ⟨rfl, rfl⟩
      · exact .inl same
      · exact .inr (.inr ⟨_, oldFound, changes⟩)

theorem bookings_length (step : Step params now before action after) :
    after.bookings.length = before.bookings.length + action.isSchedule.toNat := by
  cases step with
  | scheduled => exact List.length_append
  | changed _ changes =>
      rw [Ledger.setBooking, List.length_set]
      cases changes with
      | executed | executedInOrder | canceled => rfl

/-- No id changes, and the id of a new operation comes behind all others. -/
theorem ids_prefix (step : Step params now before action after) :
    before.bookings.map Booking.id <+: after.bookings.map Booking.id := by
  cases step with
  | scheduled =>
      rw [Ledger.addBooking, List.map_append]
      exact List.prefix_append _ _
  | @changed place old new _ found changes =>
      have same : (before.bookings.set place new).map Booking.id =
          before.bookings.map Booking.id := by
        apply map_set_of_same
        intro other stored
        cases found.symm.trans stored
        rw [changes.withState_eq]
        rfl
      exact ⟨[], by rw [Ledger.setBooking, same, List.append_nil]⟩

end Step

end Timelock

/-! ## Records and ledgers -/

namespace Represents

variable {params : Params} {record next : Text} {ledger : Ledger} {now : Number}
  (holds : Represents record ledger)

include holds

theorem hasLive_eq_false_iff (fits : ledger.bookings.length ≤ maxU8) {id : Nat} :
    Operations.hasLive params record (id : Number) now = false ↔
      ∀ booking ∈ ledger.bookings, booking.proposalId = id →
        (booking.stateAt params now).isLive = false := by
  rw [Operations.hasLive, holds.operationCount_eq fits, List.any_eq_false]
  constructor
  · intro idle booking member same
    rcases List.mem_iff_getElem?.mp member with ⟨index, found⟩
    have inside := (List.getElem?_eq_some_iff.mp found).1
    have notLive := idle index (List.mem_range.mpr inside)
    rw [holds.operationProposal_eq found, holds.operationStateAt_eq found, same] at notLive
    simpa using notLive
  · intro idle index inside
    have found := List.getElem?_eq_getElem (List.mem_range.mp inside)
    have notLive := idle _ (List.mem_of_getElem? found)
    rw [holds.operationProposal_eq found, holds.operationStateAt_eq found]
    simpa [Number.natCast_inj] using notLive

/-- A state that is not Unset is the state of an operation. -/
theorem booking_of_state {index : Nat} {state : OperationState}
    (stateEq : Operations.state params record index now = state) (set : state ≠ .unset) :
    ∃ booking, ledger.bookings[index]? = some booking ∧
      booking.stateAt params now = state := by
  obtain ⟨booking, found⟩ : ∃ booking, ledger.bookings[index]? = some booking := by
    apply holds.exists_booking
    intro stored
    simp only [Operations.state, stored] at stateEq
    exact set stateEq.symm
  rw [holds.operationStateAt_eq found] at stateEq
  exact ⟨booking, found, stateEq⟩

theorem schedule (fits : ledger.bookings.length ≤ maxU8) {proposalId delay : Number}
    {predecessorId : Option Number} {scheduled : Operations.Scheduled}
    (done : Operations.schedule params record proposalId now delay predecessorId =
      .ok scheduled) :
    ∃ after, Represents scheduled.record after ∧
      Timelock.Step params now ledger (.schedule proposalId delay predecessorId) after := by
  rcases Operations.schedule_eq_ok done with
    ⟨id, readyAt, predecessor, rfl, predecessorFits, opened⟩
  cases (Number.u32_eq_ok.mp opened.proposalId_eq).1
  have step : Timelock.Step params now ledger _
      (ledger.addBooking (opened.booking predecessorFits)) :=
    .scheduled rfl opened.delay_le opened.ready_eq
      ((holds.hasLive_eq_false_iff fits).mp opened.idle)
  exact ⟨_, holds.opened fits opened predecessorFits, step⟩

/-- The state of an operation is written, in the record and in the ledger. -/
theorem changed {index : Nat} {booking : Booking} {state : OperationState}
    {action : Timelock.Action} (found : ledger.bookings[index]? = some booking)
    (changes : Timelock.Changes params now index booking action (booking.withState state))
    (revised : Record.Revised params.recordCapacity record (.operation index .state)
      (some (Text.decimal state.code)) [] next) :
    ∃ after, Represents next after ∧ Timelock.Step params now ledger action after :=
  ⟨_, holds.setOperationState found revised.read?_eq_update, .changed found changes⟩

/-- Every action on operations that has a result takes a step of the ledger. -/
theorem applyTimelock (fits : ledger.bookings.length ≤ maxU8) {action : Timelock.Action}
    (done : action.apply params record now = .ok next) :
    ∃ after, Represents next after ∧ Timelock.Step params now ledger action after := by
  cases action with
  | schedule =>
      rcases Outcome.bind_eq_ok.mp done with ⟨scheduled, scheduling, result⟩
      cases result
      exact holds.schedule fits scheduling
  | execute number =>
      rcases Outcome.bind_eq_ok.mp done with ⟨index, indexEq, executing⟩
      cases (Number.keyIndex_eq_ok.mp indexEq).1
      rcases Operations.execute_eq_ok executing with ⟨ready, revised⟩
      rcases holds.booking_of_state ready nofun with ⟨booking, found, ready⟩
      exact holds.changed found (.executed ready) revised
  | executeInOrder number =>
      rcases Outcome.bind_eq_ok.mp done with ⟨index, indexEq, executing⟩
      cases (Number.keyIndex_eq_ok.mp indexEq).1
      rcases Operations.executeInOrder_eq_ok executing with ⟨-, ready, revised⟩
      rcases holds.booking_of_state ready nofun with ⟨booking, found, ready⟩
      exact holds.changed found (.executedInOrder ready) revised
  | cancel number =>
      rcases Outcome.bind_eq_ok.mp done with ⟨index, indexEq, canceling⟩
      cases (Number.keyIndex_eq_ok.mp indexEq).1
      rcases Operations.cancel_eq_ok canceling with ⟨live, revised⟩
      have set : Operations.state params record index now ≠ .unset := by
        intro unset
        rw [unset] at live
        cases live
      rcases holds.booking_of_state rfl set with ⟨booking, found, same⟩
      exact holds.changed found (.canceled (same ▸ live)) revised

end Represents

namespace Timelock

/-- What holds of the empty ledger and is kept by every move, between the moves made so far
and the ledger behind them, holds of a whole run. The record of a run represents a ledger, with
as many operations as were scheduled, as long as the counter can tell them. -/
theorem run {motive : List Move → Ledger → Prop} (initial : motive [] .empty)
    (refused : ∀ moves move before, motive moves before → motive (moves ++ [move]) before)
    (stepped : ∀ moves move before after, motive moves before →
      Step move.params (move.now : Number) before move.action after →
        motive (moves ++ [move]) after)
    (moves : List Move) (fits : scheduled moves ≤ maxU8) :
    ∃ ledger, Represents (recordAfter moves) ledger ∧
      ledger.bookings.length = scheduled moves ∧ motive moves ledger := by
  induction moves using List.reverseRec with
  | nil => exact ⟨.empty, represents_empty, rfl, initial⟩
  | append_singleton moves move induction =>
      rw [scheduled_append_singleton] at fits ⊢
      rcases induction (Nat.le_of_add_right_le fits) with ⟨before, holds, length, invariant⟩
      rw [recordAfter_append_singleton, Move.next]
      cases done : move.outcome (recordAfter moves) with
      | error fault =>
          rw [Move.schedules_of_error done]
          exact ⟨before, holds, length, refused moves move before invariant⟩
      | ok next =>
          rcases holds.applyTimelock (length ▸ Nat.le_of_add_right_le fits) done with
            ⟨after, afterHolds, step⟩
          rw [Move.schedules_of_ok done, ← length, ← step.bookings_length]
          exact ⟨after, afterHolds, rfl, stepped moves move before after invariant step⟩

theorem represented (moves : List Move) (fits : scheduled moves ≤ maxU8) :
    ∃ ledger, Represents (recordAfter moves) ledger ∧
      ledger.bookings.length = scheduled moves := by
  rcases run (motive := fun _ _ => True) trivial (fun _ _ _ _ => trivial)
    (fun _ _ _ _ _ _ => trivial) moves fits with ⟨ledger, holds, length, -⟩
  exact ⟨ledger, holds, length⟩

/-- One step of a run: the record stays, or its ledger takes a step. -/
theorem step_cases {moves : List Move} (fits : scheduled moves ≤ maxU8) (step : Nat) :
    recordAt moves (step + 1) = recordAt moves step ∨
      ∃ move before after, moves[step]? = some move ∧
        move.outcome (recordAt moves step) = .ok (recordAt moves (step + 1)) ∧
        Represents (recordAt moves step) before ∧ before.bookings.length ≤ maxU8 ∧
        Represents (recordAt moves (step + 1)) after ∧ after.bookings.length ≤ maxU8 ∧
        Step move.params (move.now : Number) before move.action after := by
  have prefixFits (count : Nat) : scheduled (moves.take count) ≤ maxU8 :=
    Nat.le_trans (scheduled_take_le moves count) fits
  cases placed : moves[step]? with
  | none => exact .inl (recordAt_of_length_le (List.getElem?_eq_none_iff.mp placed))
  | some move =>
      rw [recordAt_succ placed, Move.next]
      cases done : move.outcome (recordAt moves step) with
      | error fault => exact .inl rfl
      | ok next =>
          rcases represented _ (prefixFits step) with ⟨before, holds, length⟩
          have beforeFits := length ▸ prefixFits step
          rcases holds.applyTimelock beforeFits done with ⟨after, afterHolds, taken⟩
          refine .inr ⟨move, before, after, rfl, done, holds, beforeFits, afterHolds, ?_, taken⟩
          rw [taken.bookings_length, length, ← Move.schedules_of_ok done,
            ← scheduled_take_succ placed]
          exact prefixFits (step + 1)

end Timelock

end LedgerGovernance
