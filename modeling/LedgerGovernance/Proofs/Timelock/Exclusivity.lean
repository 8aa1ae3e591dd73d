import LedgerGovernance.Proofs.Timelock.Runs

/-! One operation of a proposal at a time. A proposal may be scheduled again once its last
operation is executed, canceled or Expired; nothing but the time makes an operation Expired. So
an operation that is over has to stay over, whatever comes later, and the one that the search
from the end of the record finds is the only one that can be live. -/

namespace LedgerGovernance

/-! ## States and times -/

namespace Booking

variable {booking : Booking} {params : Params} {time now : Nat}

/-- The state at a time depends on the parameters in the grace period only. -/
theorem stateAt_congr {other : Params}
    (same : other.timelockGracePeriod = params.timelockGracePeriod) (now : Number) :
    booking.stateAt other now = booking.stateAt params now := by
  rw [stateAt, stateAt, Operations.deadline, Operations.deadline, same]

theorem readyAt_le_deadline (booking : Booking) (params : Params) :
    booking.readyAt ≤ Operations.deadline params booking.readyAt :=
  Nat.le_min.mpr ⟨Nat.le_add_right _ _, booking.readyAt_le⟩

theorem isLive_stateAt_iff :
    (booking.stateAt params (now : Number)).isLive = true ↔
      booking.state = .ready ∨
        booking.state = .pending ∧ now ≤ Operations.deadline params booking.readyAt := by
  by_cases pending : booking.state = .pending
  · have order := booking.readyAt_le_deadline params
    rcases stateAt_cases pending params now with
      ⟨early, state⟩ | ⟨-, intime, state⟩ | ⟨late, state⟩ <;> rw [state]
    · exact iff_of_true rfl (.inr ⟨pending, by omega⟩)
    · exact iff_of_true rfl (.inr ⟨pending, intime⟩)
    · exact iff_of_false nofun (by simp [pending, late])
  · rw [stateAt, if_pos pending]
    cases state : booking.state <;> simp_all [OperationState.isLive]

theorem stateAt_eq_expired_iff :
    booking.stateAt params (now : Number) = .expired ↔
      booking.state = .expired ∨
        booking.state = .pending ∧ Operations.deadline params booking.readyAt < now := by
  by_cases pending : booking.state = .pending
  · have order := booking.readyAt_le_deadline params
    rcases stateAt_cases pending params now with
      ⟨early, state⟩ | ⟨-, intime, state⟩ | ⟨late, state⟩ <;> rw [state]
    · exact iff_of_false nofun (by simp [pending]; omega)
    · exact iff_of_false nofun (by simp [pending, intime])
    · exact iff_of_true rfl (.inr ⟨pending, late⟩)
  · rw [stateAt, if_pos pending]
    simp [pending]

theorem ended_later (ended : (booking.stateAt params (time : Number)).isLive = false)
    (later : time ≤ now) : (booking.stateAt params (now : Number)).isLive = false := by
  rw [← Bool.not_eq_true, isLive_stateAt_iff] at ended ⊢
  exact fun live => ended (live.imp_right fun ⟨pending, intime⟩ =>
    ⟨pending, Nat.le_trans later intime⟩)

theorem expired_later (expired : booking.stateAt params (time : Number) = .expired)
    (later : time ≤ now) : booking.stateAt params (now : Number) = .expired := by
  rw [stateAt_eq_expired_iff] at expired ⊢
  exact expired.imp_right fun ⟨pending, late⟩ => ⟨pending, Nat.lt_of_lt_of_le late later⟩

end Booking

/-- What is listed of an operation tells its state at every time. -/
theorem Operations.state_of_listed {record next : Text} {operation : Operation}
    (listed : operation ∈ list record) (kept : operation ∈ list next) (params : Params)
    (now : Number) :
    state params next operation.index now = state params record operation.index now := by
  rcases at?_fields (at?_of_listed listed) with ⟨-, readyAt, stored⟩
  rcases at?_fields (at?_of_listed kept) with ⟨-, keptReadyAt, keptStored⟩
  simp only [state, ← readyAt, ← stored, ← keptReadyAt, ← keptStored]

/-- Only what is stored Pending is derived anew. -/
theorem Operations.state_of_settled {record : Text} {operation : Operation}
    (listed : operation ∈ list record)
    (settled : operation.storedState = .unset ∨ operation.storedState = .done)
    (params : Params) (now : Number) :
    (state params record operation.index now).isLive = false := by
  have stored := (at?_fields (at?_of_listed listed)).2.2
  rcases settled with settled | settled <;> rw [state, ← stored, settled] <;> rfl

/-! ## One live operation -/

/-- No operation is live at a time that another one for the same proposal comes behind. -/
def Ledger.OneLive (ledger : Ledger) (params : Params) (now : Nat) : Prop :=
  ∀ (first second : Nat) (earlier later : Booking), first < second →
    ledger.bookings[first]? = some earlier → ledger.bookings[second]? = some later →
      earlier.proposalId = later.proposalId →
        (earlier.stateAt params (now : Number)).isLive = false

namespace Timelock

open Operations

/-- What has changed is never live again. -/
theorem Changes.ended {params : Params} {now : Number} {index : Nat} {booking later : Booking}
    {action : Action} (changes : Changes params now index booking action later) (other : Params)
    (time : Number) : (later.stateAt other time).isLive = false := by
  cases changes <;> rfl

/-- A move under the grace period of some parameters, and not behind a time. -/
structure Move.Before (move : Move) (params : Params) (now : Nat) : Prop where
  graced : move.params.timelockGracePeriod = params.timelockGracePeriod
  passed : move.now ≤ now

/-- A move leaves one live operation at every later time: a new one finds the others over, and
one that changes is over itself. -/
theorem Step.oneLive {params : Params} {now : Nat} {move : Move} {before after : Ledger}
    (step : Step move.params (move.now : Number) before move.action after)
    (past : move.Before params now) (oneLive : before.OneLive params now) :
    after.OneLive params now := by
  intro first second earlier later behind earlierFound laterFound same
  generalize move.action = action at step
  cases step with
  | scheduled _ _ _ idle =>
      rw [Ledger.addBooking, getElem?_append_singleton] at earlierFound laterFound
      split at laterFound
      · rename_i last
        cases laterFound
        rw [if_neg (by omega)] at earlierFound
        have ended := idle earlier (List.mem_of_getElem? earlierFound) same
        rw [Booking.stateAt_congr past.graced] at ended
        exact Booking.ended_later ended past.passed
      · have inside := (List.getElem?_eq_some_iff.mp laterFound).1
        rw [if_neg (by omega)] at earlierFound
        exact oneLive first second earlier later behind earlierFound laterFound same
  | changed found changes =>
      rcases getElem?_set_cases earlierFound with earlierStored | ⟨rfl, rfl⟩
      · rcases getElem?_set_cases laterFound with laterStored | ⟨rfl, rfl⟩
        · exact oneLive first second earlier later behind earlierStored laterStored same
        · rw [changes.withState_eq] at same
          exact oneLive first _ earlier _ behind earlierStored found same
      · exact changes.ended params now

theorem run_oneLive (params : Params) (now : Nat) (moves : List Move)
    (fits : scheduled moves ≤ maxU8) :
    ∃ ledger, Represents (recordAfter moves) ledger ∧
      ledger.bookings.length = scheduled moves ∧
      ((∀ move ∈ moves, move.Before params now) → ledger.OneLive params now) := by
  apply run (motive := fun moves ledger => (∀ move ∈ moves, move.Before params now) →
    ledger.OneLive params now)
  case initial =>
    intro _ first second earlier later _ found
    cases found
  case refused =>
    intro moves move before oneLive past
    exact oneLive fun other member => past other (List.mem_append_left _ member)
  case stepped =>
    intro moves move before after oneLive step past
    have last := past move (List.mem_append_right _ (List.mem_singleton_self _))
    exact step.oneLive last
      (oneLive fun other member => past other (List.mem_append_left _ member))
  case fits => exact fits

/-! ## Operations that stay -/

section

variable {params : Params} {moves : List Move} (fits : scheduled moves ≤ maxU8)

include fits

/-- A step changes no operation but one that is live. -/
theorem listed_stays {step : Nat} {operation : Operation}
    (listed : operation ∈ list (recordAt moves step))
    (ended : ∀ move, moves[step]? = some move →
      (state move.params (recordAt moves step) operation.index (move.now : Number)).isLive =
        false) :
    operation ∈ list (recordAt moves (step + 1)) := by
  rcases step_cases fits step with
    same | ⟨move, before, after, placed, -, holds, beforeFits, afterHolds, afterFits, taken⟩
  · exact same ▸ listed
  · rcases (holds.mem_operationList_iff beforeFits).mp listed with ⟨index, booking, found, rfl⟩
    have ended : (booking.stateAt move.params (move.now : Number)).isLive = false := by
      rw [← holds.operationStateAt_eq found]
      exact ended move placed
    rcases taken.booking_kept found with ⟨later, laterFound, rfl | changes⟩
    · exact (afterHolds.mem_operationList_iff afterFits).mpr ⟨index, _, laterFound, rfl⟩
    · have live := changes.live
      rw [ended] at live
      cases live

/-- What is over at the time of every later move, as long as it is in the record, stays. -/
theorem listed_stays_of_le {earlier later : Nat} (before : earlier ≤ later)
    {operation : Operation} (listed : operation ∈ list (recordAt moves earlier))
    (ended : ∀ move ∈ moves.drop earlier,
      (state move.params (recordAt moves earlier) operation.index (move.now : Number)).isLive =
        false) :
    operation ∈ list (recordAt moves later) := by
  induction later, before using Nat.le_induction with
  | base => exact listed
  | succ step reached induction =>
      refine listed_stays fits induction fun move placed => ?_
      rw [state_of_listed listed induction]
      have upcoming : (moves.drop earlier)[step - earlier]? = some move := by
        rw [List.getElem?_drop, Nat.add_sub_cancel' reached, placed]
      exact ended move (List.mem_of_getElem? upcoming)

end

/-! ## Exclusive operations -/

/-- An operation of a record is Pending or Ready at a time. -/
def Live (params : Params) (record : Text) (now : Nat) (operation : Operation) : Prop :=
  operation ∈ list record ∧ (state params record operation.index (now : Number)).isLive = true

/-- What the operations of a run owe to the check that is made when one is scheduled. -/
structure Exclusive (params : Params) (moves : List Move) : Prop where
  /-- Of the operations for a proposal, only the one that is found for it can be live. -/
  live_found : ∀ count now, (∀ move ∈ moves.take count, move.now ≤ now) →
    ∀ operation, Live params (recordAt moves count) now operation →
      indexOfProposal (recordAt moves count) operation.proposalId = .ok operation.index
  live_unique : ∀ count now, (∀ move ∈ moves.take count, move.now ≤ now) →
    ∀ left right, Live params (recordAt moves count) now left →
      Live params (recordAt moves count) now right → left.proposalId = right.proposalId →
        left = right
  settled_stays : ∀ earlier later operation, earlier ≤ later →
    operation ∈ list (recordAt moves earlier) →
      operation.storedState = .unset ∨ operation.storedState = .done →
        operation ∈ list (recordAt moves later)
  /-- What is Expired, at a time that is not behind the moves to come, is so for good. -/
  expired_stays : ∀ earlier later time now operation, earlier ≤ later → time ≤ now →
    (∀ move ∈ moves.drop earlier, time ≤ move.now) →
      operation ∈ list (recordAt moves earlier) →
        state params (recordAt moves earlier) operation.index (time : Number) = .expired →
          operation ∈ list (recordAt moves later) ∧
            state params (recordAt moves later) operation.index (now : Number) = .expired

section

variable {params : Params} {moves : List Move}
  (graced : ∀ move ∈ moves, move.params.timelockGracePeriod = params.timelockGracePeriod)
  (fits : scheduled moves ≤ maxU8)

include graced fits

/-- A live operation is the last one for its proposal, and so the one that is found. -/
theorem indexOfProposal_of_live {count now : Nat} {operation : Operation}
    (passed : ∀ move ∈ moves.take count, move.now ≤ now)
    (live : Live params (recordAt moves count) now operation) :
    indexOfProposal (recordAt moves count) operation.proposalId = .ok operation.index := by
  have past : ∀ move ∈ moves.take count, move.Before params now := fun move member =>
    ⟨graced move (List.mem_of_mem_take member), passed move member⟩
  have countFits := Nat.le_trans (scheduled_take_le moves count) fits
  rcases run_oneLive params now _ countFits with ⟨ledger, holds, length, oneLive⟩
  have ledgerFits := length ▸ countFits
  rcases live with ⟨listed, live⟩
  rw [recordAt] at listed live ⊢
  rcases (holds.mem_operationList_iff ledgerFits).mp listed with ⟨index, booking, found, rfl⟩
  refine holds.indexOfProposal_of_last ledgerFits found fun later other behind otherFound same => ?_
  have ended := oneLive past index later booking other behind found otherFound same.symm
  rw [← holds.operationStateAt_eq found] at ended
  cases live.symm.trans ended

/-- What is Expired is so at every later time, and no later move changes it. -/
theorem expired_stays {earlier later time now : Nat} {operation : Operation}
    (before : earlier ≤ later) (passed : time ≤ now)
    (upcoming : ∀ move ∈ moves.drop earlier, time ≤ move.now)
    (listed : operation ∈ list (recordAt moves earlier))
    (expired : state params (recordAt moves earlier) operation.index (time : Number) =
      .expired) :
    operation ∈ list (recordAt moves later) ∧
      state params (recordAt moves later) operation.index (now : Number) = .expired := by
  have expiredLater : ∀ other : Params,
      other.timelockGracePeriod = params.timelockGracePeriod → ∀ later : Nat, time ≤ later →
        state other (recordAt moves earlier) operation.index (later : Number) = .expired := by
    have earlierFits := Nat.le_trans (scheduled_take_le moves earlier) fits
    rcases represented _ earlierFits with ⟨ledger, holds, length⟩
    rw [recordAt] at listed expired ⊢
    rcases (holds.mem_operationList_iff (length ▸ earlierFits)).mp listed with
      ⟨index, booking, found, rfl⟩
    intro other same later passed
    refine (holds.operationStateAt_eq found other later).trans ?_
    rw [Booking.stateAt_congr same]
    exact Booking.expired_later ((holds.operationStateAt_eq found params time).symm.trans expired)
      passed
  have kept : operation ∈ list (recordAt moves later) := by
    refine listed_stays_of_le fits before listed fun move member => ?_
    rw [expiredLater move.params (graced move (List.mem_of_mem_drop member)) move.now
      (upcoming move member)]
    rfl
  exact ⟨kept, (state_of_listed listed kept params now).trans (expiredLater params rfl now passed)⟩

/-- Along a run under one grace period, a proposal never has two live operations, and what is
executed, canceled or Expired is so for good. -/
theorem operations_exclusive : Exclusive params moves := by
  constructor
  case live_found =>
    intro count now passed operation live
    exact indexOfProposal_of_live graced fits passed live
  case live_unique =>
    intro count now passed left right leftLive rightLive same
    have leftFound := indexOfProposal_of_live graced fits passed leftLive
    have rightFound := indexOfProposal_of_live graced fits passed rightLive
    rw [same, rightFound] at leftFound
    have leftListed := at?_of_listed leftLive.1
    rw [← Except.ok.inj leftFound, at?_of_listed rightLive.1] at leftListed
    exact (Option.some.inj leftListed).symm
  case settled_stays =>
    intro earlier later operation before listed settled
    exact listed_stays_of_le fits before listed fun move _ =>
      state_of_settled listed settled move.params _
  case expired_stays =>
    intro earlier later time now operation before passed upcoming listed expired
    exact expired_stays graced fits before passed upcoming listed expired

end

namespace Sample

/-- An operation is scheduled again when it is Expired, and a third time when it is canceled. -/
def rescheduled : List Move :=
  [(1000, .schedule 7 172800 none), (1383401, .schedule 7 172800 none), (1383402, .cancel 1),
    (1383402, .schedule 7 172800 none)].map fun (now, action) =>
      { params := .default, now, action }

theorem rescheduled_exclusive :
    scheduled rescheduled ≤ maxU8 ∧
      (∀ move ∈ rescheduled, move.params.timelockGracePeriod = Params.default.timelockGracePeriod) ∧
      Exclusive .default rescheduled ∧
      (list (recordAt rescheduled 4)).map (fun operation =>
        (operation.proposalId, state .default (recordAt rescheduled 4) operation.index 1383402)) =
          [(7, .expired), (7, .unset), (7, .pending)] ∧
      indexOfProposal (recordAt rescheduled 4) 7 = .ok 2 := by
  have fits : scheduled rescheduled ≤ maxU8 := by decide +kernel
  have graced : ∀ move ∈ rescheduled,
      move.params.timelockGracePeriod = Params.default.timelockGracePeriod := by
    simp [rescheduled]
  refine ⟨fits, graced, operations_exclusive graced fits, ?_⟩
  decide +kernel

end Sample

end Timelock

end LedgerGovernance
