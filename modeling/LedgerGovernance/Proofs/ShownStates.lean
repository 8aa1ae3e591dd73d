import LedgerGovernance.Proofs.Ledger.Completion
import LedgerGovernance.Proofs.Ledger.ReadBack
import LedgerGovernance.Proofs.Pairing

/-! A view shows a proposal beside its operation, each with its state. The state of a proposal
with an operation is stored, that of the operation is derived from the time; so the two keep
step until the grace period of the operation has passed. From then on the operation is shown
Expired and the proposal still Queued: no proposal is ever stored Expired, and none is derived
to be. -/

namespace LedgerGovernance

/-! ## States shown together -/

namespace ProposalView

/-- The state of the proposal and that of its operation tell the same. -/
structure Agrees (view : ProposalView) : Prop where
  queued_iff : view.state = .queued ↔
    ∃ operation ∈ view.operation, operation.state = .pending ∨ operation.state = .ready
  executed_iff : view.state = .executed ↔
    ∃ operation ∈ view.operation, operation.state = .done
  expired_iff : view.state = .expired ↔
    ∃ operation ∈ view.operation, operation.state = .expired

/-- The operation can no longer be executed. -/
def Overdue (view : ProposalView) : Prop :=
  ∃ operation ∈ view.operation, operation.state = .expired

/-- What can stand in a view of a proposal and its operation. -/
inductive Paired (view : ProposalView) : Prop
  | unbooked (missing : view.operation = none) (idle : view.state.bookedStates = [])
      (notExpired : view.state ≠ .expired)
  | waiting {operation : OperationView} (shown : view.operation = some operation)
      (queued : view.state = .queued)
      (live : operation.state = .pending ∨ operation.state = .ready)
  | overdue {operation : OperationView} (shown : view.operation = some operation)
      (queued : view.state = .queued) (expired : operation.state = .expired)
  | executed {operation : OperationView} (shown : view.operation = some operation)
      (executed : view.state = .executed) (done : operation.state = .done)

namespace Paired

variable {view : ProposalView} (paired : view.Paired)

include paired

theorem agrees (intime : ¬ view.Overdue) : view.Agrees := by
  cases paired with
  | unbooked missing idle notExpired =>
      constructor
      case expired_iff => simp [missing, notExpired]
      all_goals
        rw [missing]
        refine ⟨fun same => ?_, by simp⟩
        rw [same] at idle
        cases idle
  | waiting shown queued live =>
      constructor <;> rcases live with state | state <;> simp [shown, queued, state]
  | overdue shown _ expired => exact absurd ⟨_, shown, expired⟩ intime
  | executed shown executed done => constructor <;> simp [shown, executed, done]

theorem queued_of_overdue (overdue : view.Overdue) : view.state = .queued := by
  rcases overdue with ⟨expiring, member, expired⟩
  cases paired with
  | unbooked missing =>
      rw [missing] at member
      cases member
  | waiting shown queued => exact queued
  | overdue _ queued => exact queued
  | executed shown _ done =>
      cases Option.mem_unique shown member
      rw [expired] at done
      cases done

end Paired

end ProposalView

/-! ## Views of a ledger -/

/-- Only a proposal whose state is stored has operations. -/
theorem ProposalState.bookedStates_of_idle {state : ProposalState}
    (idle : state.isExplicit = false) : state.bookedStates = [] := by
  cases state <;> first | rfl | cases idle

namespace Motion

variable {motion : Motion} {params : Params} {now : Nat} {total : Int}

/-- The state at a time is the stored one, or both are of those that are derived. -/
theorem stateAt_eq_or_idle (motion : Motion) (params : Params) (now : Nat) (total : Int) :
    motion.stateAt params (now : Number) total = motion.state ∨
      motion.state.isExplicit = false ∧
        (motion.stateAt params (now : Number) total).isExplicit = false := by
  by_cases explicit : motion.state.isExplicit = true
  · exact .inl (stateAt_of_isExplicit explicit _)
  · have idle := (Bool.not_eq_true _).mp explicit
    exact .inr ⟨idle, (derived_stateAt params now total idle).isExplicit_eq_false⟩

/-- Which operations a proposal has can be told from its state at any time. -/
theorem bookedStates_stateAt :
    (motion.stateAt params (now : Number) total).bookedStates = motion.state.bookedStates := by
  rcases motion.stateAt_eq_or_idle params now total with same | ⟨idle, shownIdle⟩
  · rw [same]
  · rw [ProposalState.bookedStates_of_idle idle, ProposalState.bookedStates_of_idle shownIdle]

theorem stateAt_ne_expired (notExpired : motion.state ≠ .expired) :
    motion.stateAt params (now : Number) total ≠ .expired := by
  rcases motion.stateAt_eq_or_idle params now total with same | ⟨-, shownIdle⟩
  · rwa [same]
  · intro expired
    rw [expired] at shownIdle
    cases shownIdle

end Motion

namespace Represents

variable {record : Text} {ledger : Ledger} (holds : Represents record ledger)
  (coherent : ledger.Coherent)

include holds coherent

/-- No operation is shown where there is none, and otherwise the only one. -/
theorem operationOf?_cases (params : Params) (now : Number) (id : Nat) :
    Views.operationOf? params record now id = none ∧
        id ∉ ledger.bookings.map Booking.proposalId ∨
      ∃ (place : Nat) (booking : Booking), booking ∈ ledger.bookings ∧ booking.proposalId = id ∧
        Views.operationOf? params record now id =
          some ⟨booking.operation place, booking.stateAt params now⟩ := by
  by_cases booked : id ∈ ledger.bookings.map Booking.proposalId
  · refine .inr ?_
    rcases List.mem_map.mp booked with ⟨booking, member, rfl⟩
    rcases List.mem_iff_getElem?.mp member with ⟨place, placed⟩
    refine ⟨place, booking, member, rfl, ?_⟩
    rw [Views.operationOf?, holds.indexOfProposal_of_placed coherent placed]
    dsimp only
    rw [holds.operationAt?_eq placed, Option.map_some, Views.operation]
    exact congrArg _ (congrArg _ (holds.operationStateAt_eq placed params now))
  · refine .inl ⟨?_, booked⟩
    rw [Views.operationOf?]
    cases found : Operations.indexOfProposal record id with
    | error fault => rfl
    | ok index =>
        rcases holds.indexOfProposal_eq_ok found with ⟨booking, placed, rfl⟩
        exact absurd (List.mem_map_of_mem (List.mem_of_getElem? placed)) booked

/-- A proposal that its id addresses is shown with the operation that its state tells. -/
theorem view_paired (matched : ledger.Matched) {index : Nat} {motion : Motion}
    (addressed : ledger.indexOf motion.id = some index)
    (found : ledger.motions[index]? = some motion) (notExpired : motion.state ≠ .expired)
    (params : Params) (now : Nat) :
    (Views.proposal params record (now : Number) (motion.proposal index)).Paired := by
  have shown : (Views.proposal params record (now : Number) (motion.proposal index)).state =
      motion.stateAt params (now : Number) (Members.totalPower record) :=
    holds.stateAt_eq found params _ _
  rcases holds.operationOf?_cases coherent params (now : Number) motion.id with
    ⟨missing, unbooked⟩ | ⟨place, booking, member, same, present⟩
  · refine .unbooked missing ?_ ?_
    · rw [shown, Motion.bookedStates_stateAt]
      by_contra waiting
      exact unbooked (matched index motion found addressed waiting)
    · rw [shown]
      exact Motion.stateAt_ne_expired notExpired
  · rcases coherent.booked booking member with ⟨other, stored, otherEq, storedFound, states⟩
    rw [same] at otherEq
    cases addressed.symm.trans otherEq
    cases found.symm.trans storedFound
    rcases states with ⟨pending, queued⟩ | ⟨done, executed⟩
    · have state := shown.trans (Motion.stateAt_of_isExplicit (queued ▸ rfl) _)
      rw [queued] at state
      rcases booking.stateAt_cases pending params now with
        ⟨-, live⟩ | ⟨-, -, live⟩ | ⟨-, expired⟩
      · exact .waiting present state (.inl live)
      · exact .waiting present state (.inr live)
      · exact .overdue present state expired
    · have state := shown.trans (Motion.stateAt_of_isExplicit (executed ▸ rfl) _)
      rw [executed] at state
      refine .executed present state ?_
      rw [Booking.stateAt, if_pos (by simp [done]), done]

end Represents

/-! ## Views along a run -/

namespace Views

/-- The views that are shown of a record at a time: of the proposal that an id leads to, and of
each proposal in the list that shares its id with no other one. -/
inductive Shown (params : Params) (record : Text) (now : Number) (view : ProposalView) : Prop
  | described {id : Number} (done : describeProposal params record id now = .ok view)
  | listed (member : view ∈ proposals params record now)
      (unshared : ∀ other ∈ Proposals.list record, other.id = view.proposal.id →
        other = view.proposal)

end Views

/-- A view that is shown is that of a proposal which its own id leads to. -/
theorem Represents.of_shown {params : Params} {record : Text} {ledger : Ledger} {now : Number}
    {view : ProposalView} (holds : Represents record ledger)
    (shown : Views.Shown params record now view) :
    ∃ index motion, ledger.indexOf motion.id = some index ∧
      ledger.motions[index]? = some motion ∧
      view = Views.proposal params record now (motion.proposal index) := by
  cases shown with
  | @described number done =>
      simp only [Views.describeProposal, Outcome.bind_eq_ok] at done
      rcases done with ⟨id, -, index, indexEq, done⟩
      have addressed := holds.indexOf_eq_ok.mp indexEq
      rcases Ledger.indexOf_eq_some addressed with ⟨motion, found, rfl⟩
      rw [holds.proposalAt?_eq found] at done
      cases done
      exact ⟨index, motion, addressed, found, rfl⟩
  | listed member unshared =>
      rcases List.mem_map.mp member with ⟨proposal, listed, rfl⟩
      rw [holds.proposalList_eq] at listed unshared
      rcases List.mem_mapIdx.mp listed with ⟨index, inside, rfl⟩
      have found := List.getElem?_eq_getElem inside
      generalize ledger.motions[index] = motion at found unshared ⊢
      -- The first proposal with the id is in the list as well, so it is this one.
      rcases Ledger.exists_indexOf (List.mem_of_getElem? found) with ⟨first, addressed⟩
      rcases Ledger.indexOf_eq_some addressed with ⟨stored, storedFound, sameId⟩
      rcases List.getElem?_eq_some_iff.mp storedFound with ⟨firstInside, rfl⟩
      have same := unshared _ (List.mem_mapIdx.mpr ⟨first, firstInside, rfl⟩) sameId
      have sameIndex : first = index := congrArg Proposal.index same
      exact ⟨index, motion, sameIndex ▸ addressed, found, rfl⟩

theorem Seeded.storedState_ne_expired (params : Params) {start : Text} (seeded : Seeded start)
    (moves : List Move) (index : Nat)
    (inside : index < Proposals.count (recordAfter params start moves)) :
    Proposals.storedState (recordAfter params start moves) index ≠ .expired := by
  rcases seeded.recalled params moves with ⟨ledger, holds, -, recalled⟩
  rw [holds.proposalCount_eq] at inside
  rw [holds.storedState_eq (List.getElem?_eq_getElem inside)]
  exact (recalled _ (List.getElem_mem inside)).not_expired

/-- Along a run, a proposal and its operation that are shown together tell the same, up to the
end of the grace period of the operation. Behind it, they do not: the proposal is shown Queued
for good. -/
theorem shown_states_agree_iff {params : Params} {start : Text} (seeded : Seeded start)
    (moves : List Move) (now : Nat) {view : ProposalView}
    (shown : Views.Shown params (recordAfter params start moves) (now : Number) view) :
    (view.Agrees ↔ ¬ view.Overdue) ∧ (view.Overdue → view.state = .queued) := by
  have unexpired := seeded.storedState_ne_expired params moves
  rcases seeded.matched params moves with ⟨ledger, holds, coherent, matched⟩
  generalize recordAfter params start moves = record at shown unexpired holds
  rcases holds.of_shown shown with ⟨index, motion, addressed, found, rfl⟩
  have notExpired : motion.state ≠ .expired := by
    rw [← holds.storedState_eq found]
    exact unexpired index (holds.proposalCount_eq ▸ (List.getElem?_eq_some_iff.mp found).1)
  have paired := holds.view_paired coherent matched addressed found notExpired params now
  refine ⟨⟨fun agrees overdue => ?_, paired.agrees⟩, paired.queued_of_overdue⟩
  have expired := agrees.expired_iff.mpr overdue
  rw [paired.queued_of_overdue overdue] at expired
  cases expired

namespace Sample

/-- The view of the proposal at a time, on the record on which it is queued. -/
def queuedView (now : Nat) : Outcome ProposalView :=
  Views.describeProposal params (recordAfter params start (moves.take 5)) id (now : Number)

/-- At second 166 the operation can still be executed, and both states say so. A second later
only that of the operation tells that it cannot. -/
theorem overdue_shown_queued :
    (∃ view, queuedView 166 = .ok view ∧ view.Agrees ∧
      view.operation.map OperationView.state = some .ready) ∧
    ∃ view, queuedView 167 = .ok view ∧ ¬ view.Agrees ∧ view.state = .queued ∧
      view.operation.map OperationView.state = some .expired := by
  have ready : (fun view => view.operation.map OperationView.state) <$> queuedView 166 =
      .ok (some .ready) := by
    decide +kernel
  have expired : (fun view => view.operation.map OperationView.state) <$> queuedView 167 =
      .ok (some .expired) := by
    decide +kernel
  rcases Outcome.map_eq_ok.mp ready with ⟨intime, intimeShown, ready⟩
  rcases Outcome.map_eq_ok.mp expired with ⟨late, lateShown, expired⟩
  constructor
  · refine ⟨intime, intimeShown, ?_, ready⟩
    apply (shown_states_agree_iff seeded (moves.take 5) 166 (.described intimeShown)).1.mpr
    rintro ⟨operation, member, passed⟩
    rw [Option.mem_def.mp member, Option.map_some, passed] at ready
    cases ready
  · have agrees := shown_states_agree_iff seeded (moves.take 5) 167 (.described lateShown)
    rcases Option.map_eq_some_iff.mp expired with ⟨operation, member, passed⟩
    have overdue : late.Overdue := ⟨operation, member, passed⟩
    exact ⟨late, lateShown, fun same => agrees.1.mp same overdue, agrees.2 overdue, expired⟩

end Sample

end LedgerGovernance
