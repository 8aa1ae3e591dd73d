import LedgerGovernance.Proofs.Timelock.Runs
import Mathlib.Logic.Relation

/-! An operation comes after its predecessor. The predecessor is named by an id, which may
belong to nothing yet, or to several operations; it is looked up when the operation is
executed, and the first operation with the id is the one that counts. Once the lookup has
found an operation it finds the same one ever after, and what is Done stays Done, so the
order in which operations are executed is an order of the operations. -/

namespace LedgerGovernance

namespace Timelock

open Operations

/-! ## What every step keeps -/

/-- What no move takes back: the predecessors of the operations that there are, where their
ids lead, and which ones are Done. -/
structure Keeps (record next : Text) : Prop where
  count_le : count record ≤ count next
  predecessor_eq : ∀ index < count record, predecessor next index = predecessor record index
  found : ∀ id index, indexOf record id = .ok index → indexOf next id = .ok index
  done : ∀ index, storedState record index = .done → storedState next index = .done

namespace Keeps

variable {record middle next : Text}

theorem refl (record : Text) : Keeps record record :=
  ⟨Nat.le_refl _, fun _ _ => rfl, fun _ _ found => found, fun _ done => done⟩

theorem trans (first : Keeps record middle) (second : Keeps middle next) :
    Keeps record next where
  count_le := Nat.le_trans first.count_le second.count_le
  predecessor_eq index inside :=
    (second.predecessor_eq index (Nat.lt_of_lt_of_le inside first.count_le)).trans
      (first.predecessor_eq index inside)
  found id index found := second.found id index (first.found id index found)
  done index done := second.done index (first.done index done)

end Keeps

namespace Step

variable {params : Params} {now : Number} {before after : Ledger} {action : Action}

/-- The operation that an id leads to is not passed over later. -/
theorem operationIndexOf_kept (step : Step params now before action after) {id index : Nat}
    (found : before.operationIndexOf id = some index) :
    after.operationIndexOf id = some index := by
  rw [Ledger.operationIndexOf_eq_ids] at found ⊢
  exact step.ids_prefix.findIdx?_eq_some found

/-- The predecessor of an operation never changes, and an operation that is Done not at all. -/
theorem booking_stays (step : Step params now before action after) {index : Nat}
    {booking : Booking} (found : before.bookings[index]? = some booking) :
    ∃ later, after.bookings[index]? = some later ∧
      later.predecessor = booking.predecessor ∧
        (booking.state = .done → later.state = .done) := by
  rcases step.booking_kept found with ⟨later, laterFound, rfl | changes⟩
  · exact ⟨_, laterFound, rfl, id⟩
  · refine ⟨later, laterFound, by rw [changes.withState_eq]; rfl, fun done => ?_⟩
    have live := changes.live
    rw [Booking.stateAt, done] at live
    cases live

end Step

section

variable {record next : Text} {before after : Ledger} {params : Params} {now : Number}
  {action : Action}

theorem Step.keeps (step : Step params now before action after)
    (holds : Represents record before) (fits : before.bookings.length ≤ maxU8)
    (afterHolds : Represents next after) (afterFits : after.bookings.length ≤ maxU8) :
    Keeps record next := by
  constructor
  case count_le =>
    rw [holds.operationCount_eq fits, afterHolds.operationCount_eq afterFits,
      step.bookings_length]
    exact Nat.le_add_right _ _
  case predecessor_eq =>
    intro index inside
    rw [holds.operationCount_eq fits] at inside
    have found := List.getElem?_eq_getElem inside
    rcases step.booking_stays found with ⟨later, laterFound, same, -⟩
    rw [predecessor, predecessor, holds.predecessor_eq found, afterHolds.predecessor_eq laterFound,
      same]
  case found =>
    intro id index found
    rw [holds.operationIndexOf_eq_ok fits] at found
    exact (afterHolds.operationIndexOf_eq_ok afterFits).mpr (step.operationIndexOf_kept found)
  case done =>
    intro index done
    have set : storedState record index ≠ .unset := by simp [done]
    rcases holds.exists_booking set with ⟨booking, found⟩
    rcases step.booking_stays found with ⟨later, laterFound, -, stays⟩
    rw [holds.operationState_eq found] at done
    rw [afterHolds.operationState_eq laterFound, stays done]

/-- Only an execution makes an operation Done. -/
theorem Step.action_of_done (step : Step params now before action after)
    (holds : Represents record before) (fits : before.bookings.length ≤ maxU8)
    (afterHolds : Represents next after) {index : Nat}
    (undone : storedState record index ≠ .done) (done : storedState next index = .done) :
    index < count record ∧
      (action = .execute (index : Number) ∨ action = .executeInOrder (index : Number)) := by
  have set : storedState next index ≠ .unset := by simp [done]
  rcases afterHolds.exists_booking set with ⟨later, laterFound⟩
  rw [afterHolds.operationState_eq laterFound] at done
  rcases step.booking_origin laterFound with same | pending | ⟨booking, found, changes⟩
  · exact absurd ((holds.operationState_eq same).trans done) undone
  · rw [pending] at done
    cases done
  · rw [holds.operationCount_eq fits]
    exact ⟨(List.getElem?_eq_some_iff.mp found).1, changes.of_done done⟩

end

/-! ## Runs -/

section

variable {moves : List Move} (fits : scheduled moves ≤ maxU8)

include fits

theorem keeps_succ (step : Nat) : Keeps (recordAt moves step) (recordAt moves (step + 1)) := by
  rcases step_cases fits step with
    same | ⟨move, before, after, -, -, holds, beforeFits, afterHolds, afterFits, taken⟩
  · rw [same]
    exact .refl _
  · exact taken.keeps holds beforeFits afterHolds afterFits

theorem keeps_of_le {earlier later : Nat} (before : earlier ≤ later) :
    Keeps (recordAt moves earlier) (recordAt moves later) := by
  induction later, before using Nat.le_induction with
  | base => exact .refl _
  | succ count _ induction => exact induction.trans (keeps_succ fits count)

/-- Only an operation has a predecessor. -/
theorem lt_count_of_predecessor {step index : Nat}
    (awaiting : predecessor (recordAt moves step) index ≠ 0) :
    index < Operations.count (recordAt moves step) := by
  have stepFits := Nat.le_trans (scheduled_take_le moves step) fits
  rcases represented _ stepFits with ⟨ledger, holds, length⟩
  rw [recordAt, holds.operationCount_eq (length ▸ stepFits)]
  refine Nat.lt_of_not_le fun outside => awaiting ?_
  rw [recordAt, predecessor, word, holds.operationField?_eq,
    List.getElem?_eq_none_iff.mpr outside]
  rfl

/-- What is Done has been executed at some step. -/
theorem executed_of_done {count index : Nat}
    (done : storedState (recordAt moves count) index = .done) :
    ∃ step < count, index < Operations.count (recordAt moves step) ∧
      storedState (recordAt moves step) index ≠ .done ∧
      (SucceedsAt moves step (.execute (index : Number)) ∨
        SucceedsAt moves step (.executeInOrder (index : Number))) := by
  -- The step is the one behind which the operation is Done for the first time.
  induction count with
  | zero => cases done
  | succ count induction =>
      by_cases earlier : storedState (recordAt moves count) index = .done
      · rcases induction earlier with ⟨step, before, executed⟩
        exact ⟨step, Nat.lt_succ_of_lt before, executed⟩
      · rcases step_cases fits count with
          same | ⟨move, before, after, placed, result, holds, beforeFits, afterHolds, -, taken⟩
        · exact absurd (same ▸ done) earlier
        · rcases taken.action_of_done holds beforeFits afterHolds earlier done with
            ⟨inside, executed⟩
          exact ⟨count, Nat.lt_succ_self count, inside, earlier,
            executed.imp (fun same => ⟨move, placed, same, result⟩)
              fun same => ⟨move, placed, same, result⟩⟩

end

/-- Where an operation is executed in order, its predecessor is Done. -/
theorem SucceedsAt.predecessor_done {moves : List Move} {step index : Nat}
    (succeeds : SucceedsAt moves step (.executeInOrder (index : Number)))
    (awaiting : predecessor (recordAt moves step) index ≠ 0) :
    ∃ required,
      indexOf (recordAt moves step) (predecessor (recordAt moves step) index) = .ok required ∧
        storedState (recordAt moves step) required = .done := by
  rcases succeeds with ⟨move, -, actionEq, done⟩
  rw [Move.outcome, actionEq] at done
  rcases Outcome.bind_eq_ok.mp done with ⟨place, placeEq, executing⟩
  cases Number.natCast_inj.mp (Number.keyIndex_eq_ok.mp placeEq).1
  rcases executeInOrder_eq_ok executing with ⟨none | ordered, -⟩
  · exact absurd none awaiting
  · exact isDone_iff.mp ordered

/-! ## The order of execution -/

/-- An operation awaits the one that the id of its predecessor leads to. -/
def Awaits (record : Text) (index required : Nat) : Prop :=
  predecessor record index ≠ 0 ∧ indexOf record (predecessor record index) = .ok required

instance (record : Text) (index required : Nat) : Decidable (Awaits record index required) :=
  inferInstanceAs (Decidable (_ ∧ _))

/-- What the order of predecessors says of a run. -/
structure Ordered (moves : List Move) : Prop where
  /-- The predecessor of an operation that is Done is found, and it is Done; it was so when
  the operation was executed. -/
  predecessor_done : ∀ count index, storedState (recordAt moves count) index = .done →
    predecessor (recordAt moves count) index ≠ 0 →
      ∃ required, Awaits (recordAt moves count) index required ∧
        storedState (recordAt moves count) required = .done ∧
        ∃ step < count, SucceedsAt moves step (.executeInOrder (index : Number)) ∧
          Awaits (recordAt moves step) index required ∧
          storedState (recordAt moves step) required = .done
  done_stays : ∀ earlier later index, earlier ≤ later →
    storedState (recordAt moves earlier) index = .done →
      storedState (recordAt moves later) index = .done
  /-- An operation that awaits itself, at once or around a cycle, is never Done. -/
  never_done_of_cycle : ∀ count index,
    Relation.TransGen (Awaits (recordAt moves count)) index index →
      ∀ other, storedState (recordAt moves other) index ≠ .done

theorem Awaits.later {moves : List Move} (fits : scheduled moves ≤ maxU8)
    {earlier later index required : Nat} (before : earlier ≤ later)
    (awaits : Awaits (recordAt moves earlier) index required) :
    Awaits (recordAt moves later) index required := by
  have keeps := keeps_of_le fits before
  have inside := lt_count_of_predecessor fits awaits.1
  rw [Awaits, keeps.predecessor_eq index inside]
  exact ⟨awaits.1, keeps.found _ _ awaits.2⟩

section

variable {moves : List Move} (fits : scheduled moves ≤ maxU8)
  (inOrder : ∀ move ∈ moves, ∀ index, move.action ≠ .execute index)

include fits inOrder

theorem executedInOrder_of_done {count index : Nat}
    (done : storedState (recordAt moves count) index = .done) :
    ∃ step < count, index < Operations.count (recordAt moves step) ∧
      storedState (recordAt moves step) index ≠ .done ∧
      SucceedsAt moves step (.executeInOrder (index : Number)) := by
  rcases executed_of_done fits done with ⟨step, before, inside, undone, executed | executed⟩
  · rcases executed with ⟨move, placed, same, -⟩
    exact absurd same (inOrder move (List.mem_of_getElem? placed) index)
  · exact ⟨step, before, inside, undone, executed⟩

/-- An operation is executed when what it awaits is Done already. -/
theorem awaited_done {count index : Nat}
    (done : storedState (recordAt moves count) index = .done)
    (awaiting : predecessor (recordAt moves count) index ≠ 0) :
    ∃ required, Awaits (recordAt moves count) index required ∧
      ∃ step < count, SucceedsAt moves step (.executeInOrder (index : Number)) ∧
        storedState (recordAt moves step) index ≠ .done ∧
        Awaits (recordAt moves step) index required ∧
        storedState (recordAt moves step) required = .done := by
  rcases executedInOrder_of_done fits inOrder done with
    ⟨step, before, inside, undone, executed⟩
  have keeps := keeps_of_le fits (Nat.le_of_lt before)
  have same := keeps.predecessor_eq index inside
  rw [same] at awaiting
  rcases executed.predecessor_done awaiting with ⟨required, found, requiredDone⟩
  refine ⟨required, ⟨same ▸ awaiting, ?_⟩, step, before, executed, undone,
    ⟨awaiting, found⟩, requiredDone⟩
  rw [same]
  exact keeps.found _ _ found

/-- What an operation awaits is Done before the operation is, wherever in the run the lookup
is made. -/
theorem Awaits.done_before {count other index required : Nat}
    (awaits : Awaits (recordAt moves count) index required)
    (done : storedState (recordAt moves other) index = .done) :
    ∃ earlier < other, storedState (recordAt moves earlier) required = .done := by
  -- Seen from behind both records, the operation is Done and the lookup is still the same.
  have late := awaits.later fits (Nat.le_max_left count other)
  have doneLate := (keeps_of_le fits (Nat.le_max_right count other)).done index done
  rcases awaited_done fits inOrder doneLate late.1 with
    ⟨found, foundLate, step, -, -, undone, -, foundDone⟩
  cases late.2.symm.trans foundLate.2
  refine ⟨step, Nat.lt_of_not_le fun reached => ?_, foundDone⟩
  exact undone ((keeps_of_le fits reached).done index done)

theorem done_before_of_chain {count index required : Nat}
    (chain : Relation.TransGen (Awaits (recordAt moves count)) index required) {other : Nat}
    (done : storedState (recordAt moves other) index = .done) :
    ∃ earlier < other, storedState (recordAt moves earlier) required = .done := by
  induction chain with
  | single awaits => exact awaits.done_before fits inOrder done
  | tail _ awaits induction =>
      rcases induction with ⟨middle, before, middleDone⟩
      rcases awaits.done_before fits inOrder middleDone with ⟨earlier, earliest, earlierDone⟩
      exact ⟨earlier, Nat.lt_trans earliest before, earlierDone⟩

/-- On a run without executions out of order, operations become Done in the order of their
predecessors. -/
theorem run_ordered : Ordered moves := by
  constructor
  case predecessor_done =>
    intro count index done awaiting
    rcases awaited_done fits inOrder done awaiting with
      ⟨required, awaits, step, before, executed, -, awaitedThen, requiredDone⟩
    have keeps := keeps_of_le fits (Nat.le_of_lt before)
    exact ⟨required, awaits, keeps.done required requiredDone, step, before, executed,
      awaitedThen, requiredDone⟩
  case done_stays =>
    intro earlier later index before done
    exact (keeps_of_le fits before).done index done
  case never_done_of_cycle =>
    -- Around a cycle the operation would be Done before it is, at ever earlier steps.
    intro count index cycle other
    induction other using Nat.strong_induction_on with
    | h other induction =>
        intro done
        rcases done_before_of_chain fits inOrder cycle done with ⟨earlier, before, earlierDone⟩
        exact induction earlier before earlierDone

end

namespace Sample

def move (now : Nat) (action : Action) : Move where
  params := .default
  now
  action

/-- One operation has no predecessor, the next one comes behind it, and the last one is to
come behind itself. -/
def schedules : List Move := [
  move 1000 (.schedule 7 172800 none),
  move 1000 (.schedule 9 172800 (some 2995937141)),
  move 1000 (.schedule 11 172800 (some 3442663329))]

/-- Once all are Ready, the second one is tried ahead of the first one and behind it. -/
def executions : List Move :=
  [1, 0, 1, 2].map fun (index : Nat) => move 173800 (.executeInOrder (index : Number))

theorem second_waits_for_first :
    let moves := schedules ++ executions
    scheduled moves ≤ maxU8 ∧ (∀ move ∈ moves, ∀ index, move.action ≠ .execute index) ∧
      Ordered moves ∧ recordAt moves 4 = recordAt moves 3 ∧
      Awaits (recordAt moves 7) 1 0 ∧ Awaits (recordAt moves 7) 2 2 ∧
      storedState (recordAt moves 7) 0 = .done ∧ storedState (recordAt moves 7) 1 = .done ∧
      storedState (recordAt moves 7) 2 = .pending := by
  intro moves
  have fits : scheduled moves ≤ maxU8 := by decide +kernel
  have inOrder : ∀ move ∈ moves, ∀ index, move.action ≠ .execute index := by
    simp [moves, schedules, executions, move]
  refine ⟨fits, inOrder, run_ordered fits inOrder, ?_⟩
  decide +kernel

/-- An execution out of order does not wait. -/
example :
    let moves := schedules ++ [move 173800 (.execute 1)]
    storedState (recordAfter moves) 0 = .pending ∧
      storedState (recordAfter moves) 1 = .done := by
  decide +kernel

end Sample

end Timelock

end LedgerGovernance
