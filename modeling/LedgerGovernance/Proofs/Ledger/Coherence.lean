import LedgerGovernance.Proofs.Ledger.Changes
import Mathlib.Data.List.Perm.Subperm

/-! Proposals and their operations stay in step. The states that both have at a time
come first, then the invariant between them, and then the changes that keep it. -/

namespace LedgerGovernance

/-! ## States at a time -/

/-- The state of a proposal at a time and a total power. -/
def Motion.stateAt (motion : Motion) (params : Params) (now : Number) (total : Int) :
    ProposalState :=
  if motion.state.isExplicit then motion.state
  else if now < (motion.voteStart : Number) then .pending
  else if now ≤ (motion.voteEnd : Number) then .active
  else if Amount.saturatingAdd (Vote.tally .inFavor motion.votes)
      (Vote.tally .abstain motion.votes) < Members.quorum params total then .defeated
  else if Vote.tally .against motion.votes < Vote.tally .inFavor motion.votes then .succeeded
  else .defeated

/-- Only a stored state that is not explicit is derived anew. -/
theorem Motion.idle_of_stateAt {motion : Motion} {params : Params} {now : Number} {total : Int}
    {state : ProposalState} (derived : motion.stateAt params now total = state)
    (idle : state.isExplicit = false) : motion.state.isExplicit = false := by
  by_cases explicit : motion.state.isExplicit = true
  · rw [Motion.stateAt, if_pos explicit] at derived
    rw [derived, idle] at explicit
    cases explicit
  · exact (Bool.not_eq_true _).mp explicit

/-- A Succeeded proposal has been voted on to the end, and its vote has carried. -/
theorem Motion.of_stateAt_succeeded {motion : Motion} {params : Params} {now : Number}
    {total : Int} (succeeded : motion.stateAt params now total = .succeeded) :
    ¬ now ≤ (motion.voteEnd : Number) ∧
      Vote.tally .against motion.votes < Vote.tally .inFavor motion.votes ∧
      Members.quorum params total ≤
        (Vote.tally .inFavor motion.votes + Vote.tally .abstain motion.votes : Nat) := by
  have idle := Motion.idle_of_stateAt succeeded rfl
  rw [Motion.stateAt, if_neg (by simp [idle])] at succeeded
  split at succeeded
  · cases succeeded
  split at succeeded
  · cases succeeded
  rename_i ended
  split at succeeded
  · cases succeeded
  rename_i reached
  split at succeeded
  · rename_i majority
    refine ⟨ended, majority, ?_⟩
    unfold Amount.saturatingAdd at reached
    split at reached <;> omega
  · cases succeeded

/-- The state of an operation at a time. -/
def Booking.stateAt (booking : Booking) (params : Params) (now : Number) : OperationState :=
  if booking.state ≠ .pending then booking.state
  else if now < (booking.readyAt : Number) then .pending
  else if (Operations.deadline params booking.readyAt : Number) < now then .expired
  else .ready

theorem Booking.of_stateAt_ready {booking : Booking} {params : Params} {now : Number}
    (ready : booking.stateAt params now = .ready) (stored : booking.state ≠ .ready) :
    booking.state = .pending ∧ ¬ now < (booking.readyAt : Number) ∧
      ¬ (Operations.deadline params booking.readyAt : Number) < now := by
  unfold Booking.stateAt at ready
  split at ready
  · exact absurd ready stored
  rename_i pending
  split at ready
  · cases ready
  rename_i early
  split at ready
  · cases ready
  rename_i late
  exact ⟨Decidable.not_not.mp pending, early, late⟩

/-- What is stored Pending is Pending, then Ready, then Expired. -/
theorem Booking.stateAt_cases {booking : Booking} (pending : booking.state = .pending)
    (params : Params) (now : Nat) :
    now < booking.readyAt ∧ booking.stateAt params (now : Number) = .pending ∨
    booking.readyAt ≤ now ∧ now ≤ Operations.deadline params booking.readyAt ∧
      booking.stateAt params (now : Number) = .ready ∨
    Operations.deadline params booking.readyAt < now ∧
      booking.stateAt params (now : Number) = .expired := by
  rw [Booking.stateAt, if_neg (by simp [pending])]
  simp only [Number.natCast_lt]
  by_cases early : now < booking.readyAt
  · exact .inl ⟨early, if_pos early⟩
  rw [if_neg early]
  by_cases late : Operations.deadline params booking.readyAt < now
  · exact .inr (.inr ⟨late, if_pos late⟩)
  · exact .inr (.inl ⟨Nat.le_of_not_lt early, Nat.le_of_not_lt late, if_neg late⟩)

namespace Represents

variable {record : Text} {ledger : Ledger} (holds : Represents record ledger)

include holds

theorem stateAt_eq {index : Nat} {motion : Motion} (found : ledger.motions[index]? = some motion)
    (params : Params) (now : Number) (total : Int) :
    Proposals.state params record index now total = motion.stateAt params now total := by
  have inFavor := holds.amount_eq found .inFavor
  have against := holds.amount_eq found .against
  have abstain := holds.amount_eq found .abstain
  simp only [Ballots.tallyField] at inFavor against abstain
  simp only [Proposals.state, Motion.stateAt, holds.storedState_eq found,
    holds.voteStart_eq found, holds.voteEnd_eq found, inFavor, against, abstain]

theorem operationStateAt_eq {index : Nat} {booking : Booking}
    (found : ledger.bookings[index]? = some booking) (params : Params) (now : Number) :
    Operations.state params record index now = booking.stateAt params now := by
  simp only [Operations.state, Booking.stateAt, holds.operationState_eq found,
    holds.readyAt_eq found]

end Represents

/-! ## Coherence -/

namespace Ledger

/-- Each proposal has at most one operation, and the states of both agree: the proposal
that the operation's id addresses is Queued while the operation is Pending, and
Executed once it is Done. -/
structure Coherent (ledger : Ledger) : Prop where
  booked_nodup : (ledger.bookings.map Booking.proposalId).Nodup
  booked : ∀ booking ∈ ledger.bookings, ∃ index motion,
    ledger.indexOf booking.proposalId = some index ∧ ledger.motions[index]? = some motion ∧
      (booking.state = .pending ∧ motion.state = .queued ∨
        booking.state = .done ∧ motion.state = .executed)

namespace Coherent

variable {ledger : Ledger} (coherent : ledger.Coherent)

include coherent

/-- There are no more operations than proposals. -/
theorem bookings_length_le : ledger.bookings.length ≤ ledger.motions.length := by
  have subset : ledger.bookings.map Booking.proposalId ⊆ ledger.motions.map Motion.id := by
    intro id member
    rcases List.mem_map.mp member with ⟨booking, bookingMember, rfl⟩
    rcases coherent.booked booking bookingMember with ⟨index, _, indexEq, -⟩
    rcases indexOf_eq_some indexEq with ⟨motion, found, same⟩
    exact same ▸ List.mem_map_of_mem (List.mem_of_getElem? found)
  have shorter := (coherent.booked_nodup.subperm subset).length_le
  rwa [List.length_map, List.length_map] at shorter

theorem bookings_le : ledger.bookings.length ≤ maxU8 :=
  Nat.le_trans coherent.bookings_length_le ledger.motions_le

/-- Two operations of one proposal are one. -/
theorem eq_of_proposalId_eq {left right : Booking} (leftMember : left ∈ ledger.bookings)
    (rightMember : right ∈ ledger.bookings) (same : left.proposalId = right.proposalId) :
    left = right :=
  List.inj_on_of_nodup_map coherent.booked_nodup leftMember rightMember same

theorem eq_of_placed {left right : Nat} {leftBooking rightBooking : Booking}
    (leftPlaced : ledger.bookings[left]? = some leftBooking)
    (rightPlaced : ledger.bookings[right]? = some rightBooking)
    (same : leftBooking.proposalId = rightBooking.proposalId) : left = right := by
  have inside := (List.getElem?_eq_some_iff.mp leftPlaced).1
  apply (List.getElem?_inj (by rwa [List.length_map]) coherent.booked_nodup).mp
  rw [List.getElem?_map, List.getElem?_map, leftPlaced, rightPlaced, Option.map_some,
    Option.map_some, same]

/-- A proposal with an operation is stored Queued or Executed. -/
theorem isExplicit_of_booked {booking : Booking} (member : booking ∈ ledger.bookings)
    {index : Nat} {motion : Motion} (indexEq : ledger.indexOf booking.proposalId = some index)
    (found : ledger.motions[index]? = some motion) : motion.state.isExplicit = true := by
  rcases coherent.booked booking member with ⟨other, stored, otherEq, storedFound, states⟩
  rw [indexEq] at otherEq
  cases otherEq
  rw [found] at storedFound
  cases storedFound
  rcases states with ⟨-, state⟩ | ⟨-, state⟩ <;> rw [state] <;> rfl

end Coherent

/-! ## Changes that keep coherence -/

theorem indexOf_setMotion {ledger : Ledger} {index : Nat} {old motion : Motion}
    (found : ledger.motions[index]? = some old) (same : motion.id = old.id) (id : Nat) :
    (ledger.setMotion index motion).indexOf id = ledger.indexOf id := by
  have ids : (ledger.motions.set index motion).map Motion.id = ledger.motions.map Motion.id := by
    apply map_set_of_same
    intro other stored
    rw [found] at stored
    rw [← Option.some.inj stored, same]
  rw [indexOf_eq_ids, indexOf_eq_ids]
  exact congrArg _ ids

namespace Coherent

variable {ledger : Ledger} (coherent : ledger.Coherent)

include coherent

/-- Who has a seat does not matter to proposals and operations. -/
theorem entered {seat : Seat} {after : Ledger} (entered : ledger.Entered seat after) :
    after.Coherent := by
  cases entered with
  | replaced | added => exact ⟨coherent.booked_nodup, coherent.booked⟩

theorem addMotion (motion : Motion) (room : ledger.motions.length < maxU8) :
    (ledger.addMotion motion room).Coherent := by
  refine ⟨coherent.booked_nodup, fun booking member => ?_⟩
  rcases coherent.booked booking member with ⟨index, stored, indexEq, found, states⟩
  refine ⟨index, stored, ?_, ?_, states⟩
  · rw [indexOf] at indexEq ⊢
    rw [Ledger.addMotion, List.findIdx?_append, indexEq, Option.some_or]
  · exact getElem?_append_of_some found _

/-- No operation belongs to a proposal that is not stored Queued or Executed, so such a
proposal may change. -/
theorem setIdle {index : Nat} {old motion : Motion} (found : ledger.motions[index]? = some old)
    (idle : old.state.isExplicit = false) (same : motion.id = old.id) :
    (ledger.setMotion index motion).Coherent := by
  refine ⟨coherent.booked_nodup, fun booking member => ?_⟩
  rcases coherent.booked booking member with ⟨place, stored, indexEq, storedFound, states⟩
  have apart : index ≠ place := by
    intro equal
    subst equal
    rw [coherent.isExplicit_of_booked member indexEq found] at idle
    cases idle
  refine ⟨place, stored, ?_, ?_, states⟩
  · rw [indexOf_setMotion found same, indexEq]
  · rw [setMotion, List.getElem?_set_ne apart, storedFound]

/-- A proposal without an operation may be given one. -/
theorem addBooking {index : Nat} {motion : Motion} {booking : Booking}
    (indexEq : ledger.indexOf booking.proposalId = some index)
    (found : ledger.motions[index]? = some motion) (queued : motion.state = .queued)
    (pending : booking.state = .pending)
    (fresh : booking.proposalId ∉ ledger.bookings.map Booking.proposalId) :
    (ledger.addBooking booking).Coherent := by
  constructor
  · rw [Ledger.addBooking, List.map_append]
    exact nodup_append_singleton coherent.booked_nodup fresh
  · intro other member
    rcases List.mem_append.mp member with member | member
    · exact coherent.booked other member
    · rw [List.mem_singleton.mp member]
      exact ⟨index, motion, indexEq, found, .inl ⟨pending, queued⟩⟩

theorem queue {index : Nat} {motion : Motion} {booking : Booking}
    (indexEq : ledger.indexOf booking.proposalId = some index)
    (found : ledger.motions[index]? = some motion) (idle : motion.state.isExplicit = false)
    (pending : booking.state = .pending) :
    ((ledger.addBooking booking).setMotion index (motion.withState .queued)).Coherent := by
  have fresh : booking.proposalId ∉ ledger.bookings.map Booking.proposalId := by
    intro member
    rcases List.mem_map.mp member with ⟨other, otherMember, same⟩
    rw [coherent.isExplicit_of_booked otherMember (same ▸ indexEq) found] at idle
    cases idle
  have same : (motion.withState .queued).id = motion.id := rfl
  have marked := coherent.setIdle found idle same
  have markedIndex := (indexOf_setMotion found same booking.proposalId).trans indexEq
  have markedFound : (ledger.setMotion index (motion.withState .queued)).motions[index]? =
      some (motion.withState .queued) := getElem?_set_same found _
  exact marked.addBooking markedIndex markedFound rfl pending fresh

theorem execute {index place : Nat} {motion : Motion} {booking : Booking}
    (indexEq : ledger.indexOf booking.proposalId = some index)
    (found : ledger.motions[index]? = some motion)
    (placed : ledger.bookings[place]? = some booking) :
    ((ledger.setBooking place (booking.withState .done)).setMotion index
      (motion.withState .executed)).Coherent := by
  have sameId : (motion.withState .executed).id = motion.id := rfl
  have sameIndex (id : Nat) :
      (ledger.setMotion index (motion.withState .executed)).indexOf id = ledger.indexOf id :=
    indexOf_setMotion found sameId id
  constructor
  · have ids : (ledger.bookings.set place (booking.withState .done)).map Booking.proposalId =
        ledger.bookings.map Booking.proposalId := by
      apply map_set_of_same
      intro other stored
      rw [placed] at stored
      rw [← Option.some.inj stored]
      rfl
    exact ids.symm ▸ coherent.booked_nodup
  · intro other member
    rcases List.mem_iff_getElem?.mp member with ⟨otherPlace, otherPlaced⟩
    simp only [setMotion, setBooking] at otherPlaced ⊢
    by_cases here : place = otherPlace
    · subst here
      rw [getElem?_set_same placed] at otherPlaced
      cases otherPlaced
      exact ⟨index, motion.withState .executed, (sameIndex _).trans indexEq,
        getElem?_set_same found _, .inr ⟨rfl, rfl⟩⟩
    · rw [List.getElem?_set_ne here] at otherPlaced
      have otherMember := List.mem_of_getElem? otherPlaced
      rcases coherent.booked other otherMember with
        ⟨otherIndex, stored, otherIndexEq, storedFound, states⟩
      -- The proposal of another operation has another id, so it stands elsewhere.
      have apart : index ≠ otherIndex := by
        intro equal
        subst equal
        rcases indexOf_eq_some indexEq with ⟨addressed, addressedFound, id⟩
        rcases indexOf_eq_some otherIndexEq with ⟨otherAddressed, otherFound, otherId⟩
        rw [addressedFound] at otherFound
        cases otherFound
        exact here (coherent.eq_of_placed placed otherPlaced (id.symm.trans otherId))
      exact ⟨otherIndex, stored, (sameIndex _).trans otherIndexEq,
        by rw [List.getElem?_set_ne apart, storedFound], states⟩

end Coherent

end Ledger

end LedgerGovernance
