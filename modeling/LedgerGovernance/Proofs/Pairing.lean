import LedgerGovernance.Proofs.ExecutionSafety
import LedgerGovernance.Proofs.Lifecycle

/-! Proposals and their operations are two halves of one story. Queueing writes both, and
so does executing; no record in between is ever handed out. That each operation agrees with
its proposal is `Ledger.Coherent`; here it is that no proposal is Queued or Executed on its
own. -/

namespace LedgerGovernance

/-! ## Proposals that wait for an operation -/

/-- The stored states of the operations that a proposal in a state has. -/
def ProposalState.bookedStates : ProposalState → List OperationState
  | queued => [.pending]
  | executed => [.done]
  | _ => []

namespace Ledger

/-- A proposal that is Queued or Executed, and that its id addresses, has an operation. -/
def Matched (ledger : Ledger) : Prop :=
  ∀ index motion, ledger.motions[index]? = some motion →
    ledger.indexOf motion.id = some index → motion.state.bookedStates ≠ [] →
      motion.id ∈ ledger.bookings.map Booking.proposalId

theorem indexOf_congr {left right : Ledger} (same : left.motions = right.motions) (id : Nat) :
    left.indexOf id = right.indexOf id := by
  rw [indexOf, indexOf, same]

/-- A proposal that is added takes no id from another one. -/
theorem indexOf_of_append {before after : Ledger} {opened : Motion} {id index : Nat}
    (appended : after.motions = before.motions ++ [opened])
    (indexEq : after.indexOf id = some index) (old : index < before.motions.length) :
    before.indexOf id = some index := by
  rw [indexOf, appended, List.findIdx?_append] at indexEq
  rcases Option.or_eq_some_iff.mp indexEq with found | ⟨-, last⟩
  · exact found
  · rcases Option.map_eq_some_iff.mp last with ⟨offset, -, rfl⟩
    omega

namespace Step

variable {params : Params} {caller : Account} {now : Number} {action : Action}
  {before after : Ledger}

theorem booked_kept (step : Step params caller now before action after) {id : Nat}
    (booked : id ∈ before.bookings.map Booking.proposalId) :
    id ∈ after.bookings.map Booking.proposalId := by
  rcases List.mem_map.mp booked with ⟨booking, member, rfl⟩
  rcases step.booking_kept member with ⟨kept, keptMember, same, -⟩
  exact same ▸ List.mem_map_of_mem keptMember

/-- What an action makes of a proposal is Queued or Executed only with an operation. -/
theorem booked_of_changes (step : Step params caller now before action after)
    (matched : before.Matched) {index : Nat} {motion next : Motion}
    (found : before.motions[index]? = some motion)
    (indexEq : before.indexOf motion.id = some index)
    (changes : before.Changes params now index motion action next)
    (waiting : next.state.bookedStates ≠ []) :
    motion.id ∈ after.bookings.map Booking.proposalId := by
  cases changes with
  | voted =>
      exact step.booked_kept (matched index motion found indexEq waiting)
  | canceled => exact absurd rfl waiting
  | queued addressed =>
      rcases step.of_queue with ⟨booking, member, same, -⟩
      rcases indexOf_eq_some addressed with ⟨stored, storedFound, id⟩
      cases found.symm.trans storedFound
      rw [id, Number.natCast_inj.mp same]
      exact List.mem_map_of_mem member
  | executed queued =>
      refine step.booked_kept (matched index motion found indexEq ?_)
      rw [queued]
      exact List.cons_ne_nil _ _

theorem matched (step : Step params caller now before action after) (coherent : before.Coherent)
    (matched : before.Matched) : after.Matched := by
  intro index next nextFound indexEq waiting
  rcases step.motions_cases coherent with
    same | ⟨opened, pending, -, appended⟩ | ⟨place, motion, changed, found, changes, replaced⟩
  · rw [same] at nextFound
    rw [indexOf_congr same] at indexEq
    exact step.booked_kept (matched index next nextFound indexEq waiting)
  · rw [appended] at nextFound
    by_cases old : index < before.motions.length
    · rw [List.getElem?_append_left old] at nextFound
      exact step.booked_kept
        (matched index next nextFound (indexOf_of_append appended indexEq old) waiting)
    · rw [List.getElem?_append_right (Nat.le_of_not_lt old)] at nextFound
      rw [List.mem_singleton.mp (List.mem_of_getElem? nextFound), pending] at waiting
      exact absurd rfl waiting
  · have sameId : changed.id = motion.id := by cases changes <;> rfl
    have motions : after.motions = (before.setMotion place changed).motions := replaced
    rw [indexOf_congr motions, indexOf_setMotion found sameId] at indexEq
    rw [replaced] at nextFound
    rcases getElem?_set_cases nextFound with same | ⟨rfl, rfl⟩
    · exact step.booked_kept (matched index next same indexEq waiting)
    · rw [sameId] at indexEq ⊢
      exact step.booked_of_changes matched found indexEq changes waiting

end Step

end Ledger

theorem Seeded.matched (params : Params) {start : Text} (seeded : Seeded start)
    (moves : List Move) :
    ∃ ledger, Represents (recordAfter params start moves) ledger ∧ ledger.Coherent ∧
      ledger.Matched := by
  rcases seeded.represented with ⟨ledger, holds, coherent, unproposed, -⟩
  apply holds.run coherent (motive := fun _ ledger => ledger.Matched)
  · intro index motion found
    rw [unproposed] at found
    cases found
  · exact fun _ _ _ _ matched _ => matched
  · exact fun _ _ _ _ _ _ matched _ coherent step => step.matched coherent matched

/-! ## The operations of one proposal -/

/-- Where a key tells the elements of a list apart, it selects at most one of them. -/
private theorem filter_eq_singleton {α β : Type} [DecidableEq β] {key : α → β} {list : List α}
    (nodup : (list.map key).Nodup) {element : α} (member : element ∈ list) :
    (list.filter fun other => key other = key element) = [element] := by
  induction list with
  | nil => cases member
  | cons head tail induction =>
      rw [List.map_cons, List.nodup_cons] at nodup
      rcases List.mem_cons.mp member with rfl | member
      · have apart : ∀ other ∈ tail, ¬ key other = key element := by
          intro other otherMember same
          exact nodup.1 (same ▸ List.mem_map_of_mem otherMember)
        rw [List.filter_cons_of_pos (by simp), List.filter_eq_nil_iff.mpr (by simpa using apart)]
      · have apart : ¬ key head = key element := by
          intro same
          exact nodup.1 (same ▸ List.mem_map_of_mem member)
        rw [List.filter_cons_of_neg (by simpa using apart), induction nodup.2 member]

namespace Ledger

/-- A proposal in a ledger has the operations that its state tells, and no others. -/
theorem Coherent.bookedStates_eq {ledger : Ledger} (coherent : ledger.Coherent)
    (matched : ledger.Matched) {id index : Nat} {motion : Motion}
    (indexEq : ledger.indexOf id = some index) (found : ledger.motions[index]? = some motion) :
    (ledger.bookings.filter fun booking => booking.proposalId = id).map Booking.state =
      motion.state.bookedStates := by
  rcases indexOf_eq_some indexEq with ⟨stored, storedFound, rfl⟩
  cases found.symm.trans storedFound
  by_cases booked : motion.id ∈ ledger.bookings.map Booking.proposalId
  · rcases List.mem_map.mp booked with ⟨booking, member, same⟩
    rcases coherent.booked booking member with ⟨place, other, placeEq, otherFound, states⟩
    rw [same] at placeEq
    cases indexEq.symm.trans placeEq
    cases found.symm.trans otherFound
    have only := filter_eq_singleton coherent.booked_nodup member
    rw [same] at only
    rw [only, List.map_singleton]
    rcases states with ⟨pending, queued⟩ | ⟨done, executed⟩
    · rw [pending, queued]
      rfl
    · rw [done, executed]
      rfl
  · have none : ∀ booking ∈ ledger.bookings, ¬ booking.proposalId = motion.id := by
      intro booking member same
      exact booked (same ▸ List.mem_map_of_mem member)
    rw [List.filter_eq_nil_iff.mpr (by simpa using none), List.map_nil]
    by_cases waiting : motion.state.bookedStates = []
    · exact waiting.symm
    · exact absurd (matched index motion found indexEq waiting) booked

end Ledger

namespace Operations

/-- The stored states of the operations whose proposal has an id. -/
def statesOf (record : Text) (proposalId : Nat) : List OperationState :=
  ((list record).filter fun operation => operation.proposalId = proposalId).map
    Operation.storedState

end Operations

/-- A proposal id and the operations of a record agree: the proposal that the id addresses
has exactly one operation while it is stored Queued, a Pending one, or Executed, a Done
one, and none otherwise; and no operation has the id of no proposal. -/
structure Proposals.InStep (record : Text) (id : Nat) : Prop where
  statesOf_eq : ∀ index, indexOf record id = .ok index →
    Operations.statesOf record id = (storedState record index).bookedStates
  executed_iff : ∀ index, indexOf record id = .ok index →
    (storedState record index = .executed ↔
      ∃ operation ∈ Operations.list record, operation.proposalId = id ∧
        operation.storedState = .done)
  unknown : (∀ proposal ∈ list record, proposal.id ≠ id) → Operations.statesOf record id = []

/-- On the record behind every run, and so behind every move of it that is refused, each
proposal is in step with its operations. -/
theorem proposals_in_step {params : Params} {start : Text} (seeded : Seeded start)
    (moves : List Move) (id : Nat) :
    Proposals.InStep (recordAfter params start moves) id := by
  rcases seeded.matched params moves with ⟨ledger, holds, coherent, matched⟩
  generalize recordAfter params start moves = record at holds
  have states : ∀ index, Proposals.indexOf record id = .ok index →
      Operations.statesOf record id = (Proposals.storedState record index).bookedStates := by
    intro index indexEq
    have addressed := holds.indexOf_eq_ok.mp indexEq
    rcases Ledger.indexOf_eq_some addressed with ⟨motion, found, -⟩
    rw [Operations.statesOf, holds.map_storedState_filter coherent.bookings_le,
      holds.storedState_eq found, coherent.bookedStates_eq matched addressed found]
  constructor
  case statesOf_eq => exact states
  case executed_iff =>
    intro index indexEq
    have done : (∃ operation ∈ Operations.list record, operation.proposalId = id ∧
        operation.storedState = .done) ↔ .done ∈ Operations.statesOf record id := by
      simp [Operations.statesOf, and_assoc]
    rw [done, states index indexEq]
    cases Proposals.storedState record index <;> simp [ProposalState.bookedStates]
  case unknown =>
    intro unknown
    rw [Operations.statesOf, holds.map_storedState_filter coherent.bookings_le, List.map_eq_nil_iff,
      List.filter_eq_nil_iff]
    intro booking member same
    rcases coherent.booked booking member with ⟨index, motion, indexEq, found, -⟩
    rcases Ledger.indexOf_eq_some indexEq with ⟨stored, storedFound, storedId⟩
    cases found.symm.trans storedFound
    have inside := (List.getElem?_eq_some_iff.mp found).1
    have listed : motion.proposal index ∈ Proposals.list record :=
      List.mem_filterMap.mpr ⟨index, List.mem_range.mpr (holds.proposalCount_eq ▸ inside),
        holds.proposalAt?_eq found⟩
    exact unknown _ listed (storedId.trans (of_decide_eq_true same))

/-- The proposal of the sample is queued with an operation that is Pending, and executed
with the same operation, Done. -/
theorem sample_in_step :
    (∀ id, Proposals.InStep
      (recordAfter Sample.params Sample.start (Sample.moves.take 5)) id) ∧
    (∀ id, Proposals.InStep (recordAfter Sample.params Sample.start Sample.moves) id) ∧
    Operations.statesOf (recordAfter Sample.params Sample.start (Sample.moves.take 5))
      1785919953 = [.pending] ∧
    Operations.statesOf (recordAfter Sample.params Sample.start Sample.moves) 1785919953 =
      [.done] := by
  exact ⟨fun id => proposals_in_step Sample.seeded (Sample.moves.take 5) id,
    fun id => proposals_in_step Sample.seeded Sample.moves id, by decide +kernel⟩

end LedgerGovernance
